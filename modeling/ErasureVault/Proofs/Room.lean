/-
  Room: what a store still takes.

  * `Store.HasRoom n`: the store works and has room for `n` bytes more. What there is room for is
    stored, and takes up no more than its bytes (`HasRoom.put`);
  * `Store.Metered`: the meter counts the bytes that the store holds, whatever is stored and removed
    (`Metered.put`, `Metered.delete`). Then nothing is taken from the count that it does not contain
    (`Metered.covers`), and a part that is stored again takes no more room (`HasRoom.put_again`).
-/
import ErasureVault.Proofs.Contents

namespace ErasureVault

open Function

/-! ## Capacity -/

/-- There is room for `n` bytes more. -/
def Meter.HasRoom (n : ℕ) (m : Meter) : Prop :=
  m.capacity = 0 ∨ m.used + n ≤ m.capacity

theorem Meter.HasRoom.accept {m : Meter} {added n : ℕ} (h : m.HasRoom (added + n)) (replaced : ℕ) :
    ∃ m', m.accept replaced added = .ok m' ∧ m'.HasRoom n := by
  rw [HasRoom] at h
  have hfits : ¬ (0 < m.capacity ∧ m.capacity < m.used - replaced + added) := by omega
  refine ⟨_, by simp only [Meter.accept, hfits, if_false]; rfl, ?_⟩
  simp only [HasRoom]
  omega

namespace Store

/-- The store works, and has room for `n` bytes more. -/
def HasRoom (n : ℕ) : Store → Prop
  | memory m => m.meter.HasRoom n
  | tables t => t.meter.HasRoom n
  | offline => False

variable {n : ℕ} {s s' : Store}

theorem HasRoom.of_unread (h : s.HasRoom n) (hs : s'.unread = s.unread) : s'.HasRoom n := by
  have hunread (s : Store) : s.unread.HasRoom n ↔ s.HasRoom n := by
    cases s <;> rfl
  rwa [← hunread, hs, hunread]

/-- What there is room for is stored. -/
theorem HasRoom.put {record data : Bytes} (h : s.HasRoom (record.length + data.length + n))
    (key : String) :
    ∃ s', s.put key record data = (.ok (), s') ∧
      s'.held = update s.held (Text.utf8 key) (some record, some data) ∧ s'.HasRoom n := by
  cases s with
  | memory m =>
    obtain ⟨meter, ha, hroom⟩ := Meter.HasRoom.accept h (m.footprint (Text.utf8 key))
    refine ⟨memory ⟨_, meter⟩, ?_, held_memory_insert .., hroom⟩
    rw [Store.put, MemoryStore.put, ha]
    rfl
  | tables t =>
    obtain ⟨meter, ha, hroom⟩ := Meter.HasRoom.accept h (t.tables.footprint (Text.utf8 key))
    refine ⟨tables ⟨_, meter⟩, ?_, held_tables_put .., hroom⟩
    rw [Store.put, TableStore.put, ha]
    rfl
  | offline => exact h.elim

end Store

/-! ## Counted bytes -/

theorem used_of_accept {m m' : Meter} {replaced added : ℕ} (h : m.accept replaced added = .ok m') :
    m'.used = m.used - replaced + added := by
  rw [Meter.accept] at h
  split at h
  · simp at h
  · rw [← Except.ok.inj h]

theorem Table.le_total {β : Type} (f : β → ℕ) (t : Table β) (k : Bytes) :
    (t.get? k).elim 0 f ≤ t.total f :=
  Nat.le_of_add_left_le (Nat.le_of_eq (t.total_erase f k))

namespace Store

/-- The bytes of a record and a shard. -/
def entryBytes (entry : Option Bytes × Option Bytes) : ℕ :=
  entry.1.elim 0 List.length + entry.2.elim 0 List.length

theorem footprint_memory (m : MemoryStore) (k : Bytes) :
    m.footprint k = entryBytes ((memory m).held k) := by
  rw [MemoryStore.footprint, held, entryBytes]
  cases m.table.get? k <;> rfl

theorem footprint_tables (t : TableStore) (k : Bytes) :
    t.tables.footprint k = entryBytes ((tables t).held k) :=
  Nat.add_comm ..

/-- The meter counts the bytes that the store holds. -/
def Metered : Store → Prop
  | memory m => m.meter.used = m.table.total Entry.footprint
  | tables t => t.meter.used = t.tables.totalBytes
  | offline => True

variable {s s' : Store} {n : ℕ}

theorem Metered.of_unread (h : s.Metered) (hs : s'.unread = s.unread) : s'.Metered := by
  have hunread (s : Store) : s.unread.Metered ↔ s.Metered := by
    cases s <;> rfl
  rwa [← hunread, hs, hunread]

/-- The bytes under a key, which a write or a removal takes from the count, are part of it. -/
def Covers (k : Bytes) : Store → Prop
  | memory m => m.footprint k ≤ m.meter.used
  | tables t => t.tables.footprint k ≤ t.meter.used
  | offline => True

/-- **Nothing is taken from a count that it does not contain.** -/
theorem Metered.covers (h : s.Metered) (k : Bytes) : s.Covers k := by
  cases s with
  | memory m =>
    rw [Covers, show m.meter.used = _ from h]
    exact m.table.le_total Entry.footprint k
  | tables t =>
    rw [Covers, show t.meter.used = _ from h]
    exact Nat.add_le_add (t.tables.shards.le_total List.length k)
      (t.tables.records.le_total List.length k)
  | offline => trivial

theorem Metered.put (h : s.Metered) (key : String) (record data : Bytes) :
    (s.put key record data).2.Metered := by
  cases s with
  | memory m =>
    rw [Store.put, MemoryStore.put]
    cases ha : m.meter.accept (m.footprint (Text.utf8 key)) (record.length + data.length) with
    | error e => exact h
    | ok meter =>
      have htotal : (m.table.insert (Text.utf8 key) ⟨record, data⟩).total Entry.footprint +
          m.footprint (Text.utf8 key) = m.table.total Entry.footprint +
          (record.length + data.length) :=
        m.table.total_insert Entry.footprint (Text.utf8 key) ⟨record, data⟩
      have hle : m.footprint (Text.utf8 key) ≤ m.meter.used := h.covers (Text.utf8 key)
      change meter.used = (m.table.insert (Text.utf8 key) ⟨record, data⟩).total Entry.footprint
      rw [show m.meter.used = _ from h] at hle
      rw [used_of_accept ha, show m.meter.used = _ from h]
      omega
  | tables t =>
    rw [Store.put, TableStore.put]
    cases ha : t.meter.accept (t.tables.footprint (Text.utf8 key))
        (record.length + data.length) with
    | error e => exact h
    | ok meter =>
      have hshards := t.tables.shards.total_insert List.length (Text.utf8 key) data
      have hrecords := t.tables.records.total_insert List.length (Text.utf8 key) record
      have hle : t.tables.footprint (Text.utf8 key) ≤ t.meter.used := h.covers (Text.utf8 key)
      change meter.used = (t.tables.shards.insert (Text.utf8 key) data).total List.length +
        (t.tables.records.insert (Text.utf8 key) record).total List.length
      rw [show t.meter.used = _ from h, Tables.totalBytes, Tables.footprint] at hle
      rw [used_of_accept ha, show t.meter.used = _ from h, Tables.totalBytes, Tables.footprint]
      omega
  | offline => exact h

theorem Metered.delete (h : s.Metered) (key : String) : (s.delete key).2.Metered := by
  cases s with
  | memory m =>
    rw [Store.delete, MemoryStore.delete]
    cases hk : m.table.get? (Text.utf8 key) with
    | none => exact h
    | some e =>
      have htotal := m.table.total_erase Entry.footprint (Text.utf8 key)
      rw [hk, Option.elim_some] at htotal
      change m.meter.used - e.footprint = (m.table.erase (Text.utf8 key)).total Entry.footprint
      rw [show m.meter.used = _ from h]
      omega
  | tables t =>
    have hshards := t.tables.shards.total_erase List.length (Text.utf8 key)
    have hrecords := t.tables.records.total_erase List.length (Text.utf8 key)
    have hused : t.meter.used - t.tables.footprint (Text.utf8 key) =
        (t.tables.shards.erase (Text.utf8 key)).total List.length +
          (t.tables.records.erase (Text.utf8 key)).total List.length := by
      rw [show t.meter.used = _ from h, Tables.totalBytes, Tables.footprint]
      omega
    rw [Store.delete, TableStore.delete]
    cases hheld : (t.tables.records.get? (Text.utf8 key)).isSome ||
        (t.tables.shards.get? (Text.utf8 key)).isSome with
    | true => exact hused
    | false =>
      -- nothing is held, so nothing is freed
      simp only [Bool.or_eq_false_iff, Option.isSome_eq_false_iff, Option.isNone_iff_eq_none]
        at hheld
      rw [Tables.footprint, hheld.1, hheld.2] at hused
      exact hused
  | offline => exact h

theorem HasRoom.of_accept {m m' : Meter} {bytes : ℕ} (h : m.HasRoom n)
    (ha : m.accept bytes bytes = .ok m') (hle : bytes ≤ m.used) : m'.HasRoom n := by
  rw [Meter.HasRoom, used_of_accept ha, capacity_of_accept ha, Nat.sub_add_cancel hle]
  exact h

/-- A part that is stored again takes no more room. -/
theorem HasRoom.put_again (h : s.HasRoom n) (hm : s.Metered) {key : String} {record data : Bytes}
    (hheld : s.held (Text.utf8 key) = (some record, some data)) :
    (s.put key record data).2.HasRoom n := by
  cases s with
  | memory m =>
    have hfootprint : m.footprint (Text.utf8 key) = record.length + data.length := by
      rw [footprint_memory, hheld]
      rfl
    rw [Store.put, MemoryStore.put, hfootprint]
    cases ha : m.meter.accept (record.length + data.length) (record.length + data.length) with
    | error e => exact h
    | ok meter =>
      refine HasRoom.of_accept h ha ?_
      rw [← hfootprint]
      exact hm.covers (Text.utf8 key)
  | tables t =>
    have hfootprint : t.tables.footprint (Text.utf8 key) = record.length + data.length := by
      rw [footprint_tables, hheld]
      rfl
    rw [Store.put, TableStore.put, hfootprint]
    cases ha : t.meter.accept (record.length + data.length) (record.length + data.length) with
    | error e => exact h
    | ok meter =>
      refine HasRoom.of_accept h ha ?_
      rw [← hfootprint]
      exact hm.covers (Text.utf8 key)
  | offline => exact h

end Store

end ErasureVault
