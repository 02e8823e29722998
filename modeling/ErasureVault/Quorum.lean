/-
  Quorums: one answer from the outcomes of all slots.

  * `Thresholds` are the numbers of slots that must agree on a read and on a write, and
    `Geometry.thresholds` those of a geometry;
  * `Outcome.vote?` is what an outcome counts for: nothing if its class is ignored, and the
    same as any other cancellation if it is one; `votes` are the votes of all outcomes;
  * `countVotes` groups equal votes in the order in which they first appear, and `leader` is
    the greatest group, a success before a failure and else the one seen first;
  * `plurality` is the leader of the votes of all outcomes, and `resolve` the leader if it
    reaches a quorum.
-/
import ErasureVault.Code.Geometry

namespace ErasureVault

/-! ## Thresholds -/

/-- How many slots must agree. -/
structure Thresholds where
  read : Nat
  write : Nat
  deriving DecidableEq

namespace Thresholds

/-- The thresholds for `data` data shards and `parity` parity shards: reading takes as many slots as
    there are data shards, and so does writing, unless as many slots again could miss the block. -/
def ofCounts (data parity : Nat) : Thresholds :=
  ⟨data, if data = parity then data + 1 else data⟩

end Thresholds

def Geometry.thresholds (g : Geometry) : Thresholds :=
  .ofCounts g.data g.parity

/-! ## Votes -/

/-- What one slot answered. -/
abbrev Outcome (α : Type) := Except Failure α

variable {α : Type}

namespace Outcome

def isOk : Outcome α → Bool
  | .ok _ => true
  | .error _ => false

def same [BEq α] : Outcome α → Outcome α → Bool
  | .ok a, .ok b => a == b
  | .error e, .error f => e = f
  | _, _ => false

/-- What an outcome counts for, if the failures of some classes are ignored. -/
def vote? (ignored : List Category) : Outcome α → Option (Outcome α)
  | .ok a => some (.ok a)
  | .error e =>
    if e.category ∈ ignored then none
    else if e.isCanceled then some (.error .canceledByCaller)
    else some (.error e)

theorem same_iff [BEq α] [LawfulBEq α] {x y : Outcome α} : same x y ↔ x = y := by
  cases x <;> cases y <;> simp [same]

end Outcome

namespace Quorum

/-- The classes of failures that say nothing about what is stored. -/
def readIgnored : List Category := [.missing, .denied]

def votes (ignored : List Category) (outcomes : List (Outcome α)) : List (Outcome α) :=
  outcomes.filterMap (Outcome.vote? ignored)

section
variable [BEq α]

/-- One vote more for `v`. -/
def addVote (v : Outcome α) : List (Outcome α × Nat) → List (Outcome α × Nat)
  | [] => [(v, 1)]
  | (w, n) :: rest => if w.same v then (w, n + 1) :: rest else (w, n) :: addVote v rest

/-- How often each vote was cast, in the order of their first appearance. -/
def countVotes (vs : List (Outcome α)) : List (Outcome α × Nat) :=
  vs.foldl (fun groups v => addVote v groups) []

end

/-- Whether a later group goes before the best one so far. -/
def Outranks (later best : Outcome α × Nat) : Prop :=
  best.2 < later.2 ∨ (later.2 = best.2 ∧ later.1.isOk ∧ ¬ best.1.isOk)

instance (later best : Outcome α × Nat) : Decidable (Outranks later best) :=
  inferInstanceAs (Decidable (_ ∨ _))

/-- The group that no other outranks, if there is any group. -/
def leader : List (Outcome α × Nat) → Option (Outcome α × Nat)
  | [] => none
  | first :: rest =>
    some (rest.foldl (fun best later => if Outranks later best then later else best) first)

section
variable [BEq α]

def plurality (ignored : List Category) (outcomes : List (Outcome α)) : Option (Outcome α × Nat) :=
  leader (countVotes (votes ignored outcomes))

/-- The vote cast most often if at least `quorum` slots cast it, and else the failure of the
    number that did; a caller who gave up gets no decision. -/
def resolve (canceled : Bool) (ignored : List Category) (quorum : Nat) (fallback : Nat → Failure)
    (outcomes : List (Outcome α)) : Outcome α :=
  if canceled then .error .canceledByCaller
  else
    match plurality ignored outcomes with
    | some (winner, count) => if quorum ≤ count then winner else .error (fallback count)
    | none => .error (fallback 0)

end

end Quorum

end ErasureVault
