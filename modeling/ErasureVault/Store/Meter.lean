/-
  Meters — how full a store is, and how often it has been used.

  * `Meter` counts the bytes used, against a capacity that is unlimited if zero, and the reads,
    writes and deletions;
  * `Meter.accept` counts a write that replaces some bytes by others, unless it goes beyond the
    capacity (`accept_eq_error_iff`), and `Meter.release` a deletion;
  * `Usage` is what a store reports of itself, with `usagePercent`.
-/
import ErasureVault.Failure

namespace ErasureVault

structure Meter where
  used : Nat
  /-- The most bytes that may be used; zero if there is no limit. -/
  capacity : Nat
  reads : Nat
  writes : Nat
  deletes : Nat
  deriving DecidableEq

namespace Meter

/-- The counters of a store that holds `used` bytes and has not been used yet. -/
def fresh (capacity used : Nat) : Meter :=
  ⟨used, capacity, 0, 0, 0⟩

def read (m : Meter) : Meter :=
  { m with reads := m.reads + 1 }

/-- A write of `added` bytes in the place of `replaced` ones. -/
def accept (m : Meter) (replaced added : Nat) : Except Failure Meter :=
  let others := m.used - replaced
  if 0 < m.capacity ∧ m.capacity < others + added then .error (.storageFull others m.capacity)
  else .ok { m with used := others + added, writes := m.writes + 1 }

/-- A deletion of `freed` bytes. -/
def release (m : Meter) (freed : Nat) : Meter :=
  { m with used := m.used - freed, deletes := m.deletes + 1 }

/-- A write is refused exactly if it goes beyond the capacity. -/
theorem accept_eq_error_iff {m : Meter} {replaced added : Nat} {e : Failure} :
    m.accept replaced added = .error e ↔
      (0 < m.capacity ∧ m.capacity < m.used - replaced + added) ∧
        e = .storageFull (m.used - replaced) m.capacity := by
  unfold accept
  grind

end Meter

structure Usage where
  keys : Nat
  meter : Meter
  deriving DecidableEq

/-- The used part of a capacity in percent, in double precision: two roundings to the nearest
    double and then a quotient and a product; zero if there is no limit. -/
def usagePercent (used capacity : Nat) : Float :=
  if capacity = 0 then 0.0
  else (UInt64.ofNat used).toFloat / (UInt64.ofNat capacity).toFloat * 100.0

def Usage.percent (u : Usage) : Float :=
  usagePercent u.meter.used u.meter.capacity

end ErasureVault
