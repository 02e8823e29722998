/-
  Accounts: what a store reports of its keys and its bytes, and what it refuses.

  * `Store.keys` are the keys that a store counts, `Store.storedBytes` the bytes of their records
    and shards, added up key by key, and `Store.bytesBeside` those of the other keys;
  * `Deed` is what can be done with a store from outside: a request, forgetting everything, damaging
    a shard, and closing the store and opening it again; `Deed.runAll` does one after the other.
    Every deed keeps the bytes counted and each record beside its shard (`Balanced.run`), and none
    but damage, or another capacity, takes a store beyond its capacity (`Balanced.hasRoom`);
  * `Store.Accounted`: the usage is that of the keys, a shard is refused exactly if it does not fit
    beside the other keys, and no count is ever taken below zero. It holds after every run
    (`accounts_of_run`).
-/
import ErasureVault.Proofs.Interchange
import Mathlib.Algebra.BigOperators.Group.List.Basic
import Mathlib.Algebra.Ring.Nat

namespace ErasureVault

open Function

/-! ## Sums over keys -/

/-- A total is the sum over the keys. -/
theorem Table.total_eq_sum {β : Type} (f : β → ℕ) (t : Table β) :
    t.total f = (t.keys.map fun k => (t.get? k).elim 0 f).sum := by
  have hvalues : t.entries.map (fun p => (t.get? p.1).elim 0 f) = t.entries.map fun p => f p.2 := by
    refine List.map_congr_left fun p hp => ?_
    rw [get?, (lookup_eq_some_iff t.sorted).2 hp, Option.elim_some]
  rw [keys, List.map_map, show (fun k => (t.get? k).elim 0 f) ∘ Prod.fst =
    fun p : Bytes × β => (t.get? p.1).elim 0 f from rfl, hvalues, total, sumOf, List.sum_eq_foldr,
    List.foldr_map]

/-- A sum over keys is that of one of them and that of the others; a key that is not among them adds
nothing. -/
theorem sum_beside {keys : List Bytes} (h : keys.Nodup) (f : Bytes → ℕ) (k : Bytes)
    (hk : k ∉ keys → f k = 0) :
    ((keys.filter (· ≠ k)).map f).sum + f k = (keys.map f).sum := by
  have hothers : keys.filter (· ≠ k) = keys.erase k := by
    rw [h.erase_eq_filter k]
    exact List.filter_congr fun l _ => by by_cases hl : l = k <;> simp [hl]
  rw [hothers]
  by_cases hmem : k ∈ keys
  · rw [((List.perm_cons_erase hmem).map f).sum_eq, List.map_cons, List.sum_cons, Nat.add_comm]
  · rw [List.erase_of_not_mem hmem, hk hmem, Nat.add_zero]

namespace Store

/-! ## What a store holds -/

/-- The keys that a store counts. -/
def keys : Store → List Bytes
  | memory m => m.keys
  | tables t => t.keys
  | offline => []

def meter : Store → Meter
  | memory m => m.meter
  | tables t => t.meter
  | offline => .fresh 0 0

/-- The bytes of all records and shards. -/
def storedBytes (s : Store) : ℕ :=
  (s.keys.map fun k => entryBytes (s.held k)).sum

/-- The bytes of the records and shards of the other keys. -/
def bytesBeside (s : Store) (k : Bytes) : ℕ :=
  ((s.keys.filter (· ≠ k)).map fun l => entryBytes (s.held l)).sum

/-- Every record has its shard, and every shard its record. -/
def Whole (s : Store) : Prop :=
  ∀ k, (s.held k).1.isSome = (s.held k).2.isSome

variable {s : Store}

theorem pairwise_keys (s : Store) : s.keys.Pairwise (· < ·) := by
  cases s with
  | memory m => exact m.table.pairwise_keys
  | tables t => exact t.tables.records.pairwise_keys
  | offline => exact List.Pairwise.nil

theorem mem_keys_iff {k : Bytes} : k ∈ s.keys ↔ (s.held k).1.isSome := by
  cases s with
  | memory m =>
    rw [keys, MemoryStore.keys, Table.mem_keys_iff, ← Option.isSome_iff_exists]
    exact Option.isSome_map.symm ▸ Iff.rfl
  | tables t =>
    rw [keys, TableStore.keys, Table.mem_keys_iff, ← Option.isSome_iff_exists]
    rfl
  | offline => simp [keys, held]

/-- A key is counted exactly if there is something under it. -/
theorem Whole.mem_keys_iff (h : s.Whole) {k : Bytes} : k ∈ s.keys ↔ s.held k ≠ (none, none) := by
  have hk := h k
  rw [Store.mem_keys_iff]
  rcases hheld : s.held k with ⟨_ | record, _ | shard⟩ <;> simp [hheld] at hk ⊢

theorem whole_memory (m : MemoryStore) : (memory m).Whole := fun k => by
  simp only [held, Option.isSome_map]

/-- The bytes that are stored are those under a key and those beside it. -/
theorem Whole.bytesBeside_add (h : s.Whole) (k : Bytes) :
    s.bytesBeside k + entryBytes (s.held k) = s.storedBytes := by
  refine sum_beside (nodup_of_pairwise_lt s.pairwise_keys) (fun k => entryBytes (s.held k)) k
    fun hk => ?_
  rw [h.mem_keys_iff, not_not] at hk
  rw [hk]
  rfl

/-- **The meter counts what is stored**, key by key. -/
theorem Whole.used_eq (h : s.Whole) (hm : s.Metered) : s.meter.used = s.storedBytes := by
  cases s with
  | memory m =>
    rw [meter, show m.meter.used = _ from hm, Table.total_eq_sum]
    refine congrArg List.sum (List.map_congr_left fun k _ => ?_)
    exact footprint_memory m k
  | tables t =>
    -- both tables have the same keys, so their totals are sums over the same list
    have hkeys : t.tables.shards.keys = t.tables.records.keys := by
      refine eq_of_pairwise_lt t.tables.shards.pairwise_keys t.tables.records.pairwise_keys
        fun k => ?_
      rw [Table.mem_keys_iff, Table.mem_keys_iff, ← Option.isSome_iff_exists,
        ← Option.isSome_iff_exists]
      exact Bool.eq_iff_iff.1 (h k).symm
    rw [meter, show t.meter.used = _ from hm, Tables.totalBytes, Table.total_eq_sum,
      Table.total_eq_sum, hkeys, Nat.add_comm, ← List.sum_map_add]
    rfl
  | offline => rfl

/-! ## What a request does -/

/-- What a request makes of the entries, unless it is refused. -/
def Request.effect (h : Bytes → Option Bytes × Option Bytes) :
    Request → Bytes → Option Bytes × Option Bytes
  | .put key record data => update h (Text.utf8 key) (some record, some data)
  | .delete key => update h (Text.utf8 key) (none, none)
  | _ => h

/-- The request failed. -/
def Reply.refused : Reply → Bool
  | .done (.error _) => true
  | _ => false

/-- A request that is refused leaves the entries, and any other has its effect on them. -/
theorem held_serve (r : Request) (s : Store) :
    (r.serve s).2.held = if (r.serve s).1.refused then s.held else r.effect s.held := by
  cases r with
  | put key record data =>
    rcases put_cases key record data s with ⟨e, h⟩ | ⟨s', h, hheld, -⟩
    · simp [Request.serve, h, Reply.refused]
    · simp [Request.serve, h, Reply.refused, hheld, Request.effect]
  | delete key => exact held_delete key s
  | get key => exact held_eq_of_unread (unread_get key s)
  | getRecord key => exact held_eq_of_unread (unread_getRecord key s)
  | size key => rfl
  | scan => rfl
  | usage => rfl
  | flush => exact (ite_self _).symm

theorem Whole.serve (h : s.Whole) (r : Request) : (r.serve s).2.Whole := by
  intro k
  rw [held_serve]
  split
  · exact h k
  · cases r with
    | put key record data => by_cases hk : k = Text.utf8 key <;> simp [Request.effect, hk, h k]
    | delete key => by_cases hk : k = Text.utf8 key <;> simp [Request.effect, hk, h k]
    | get | getRecord | size | scan | usage | flush => exact h k

/-- What is stored is accepted by the meter, in the place of what the key had. -/
theorem put_meter (h : s ≠ .offline) (key : String) (record data : Bytes) :
    let accepted := s.meter.accept (entryBytes (s.held (Text.utf8 key)))
      (record.length + data.length)
    (∃ e, accepted = .error e ∧ s.put key record data = (.error e, s)) ∨
      ∃ m, accepted = .ok m ∧ (s.put key record data).1 = .ok () ∧
        (s.put key record data).2.meter = m := by
  cases s with
  | memory m =>
    rw [← footprint_memory, meter, put, MemoryStore.put]
    cases m.meter.accept (m.footprint (Text.utf8 key)) (record.length + data.length) with
    | error e => exact Or.inl ⟨e, rfl, rfl⟩
    | ok meter => exact Or.inr ⟨meter, rfl, rfl, rfl⟩
  | tables t =>
    rw [← footprint_tables, meter, put, TableStore.put]
    cases t.meter.accept (t.tables.footprint (Text.utf8 key)) (record.length + data.length) with
    | error e => exact Or.inl ⟨e, rfl, rfl⟩
    | ok meter => exact Or.inr ⟨meter, rfl, rfl, rfl⟩
  | offline => exact absurd rfl h

/-- A removal only takes from the count. -/
theorem meter_delete (key : String) (s : Store) :
    (s.delete key).2.meter = s.meter ∨ ∃ freed, (s.delete key).2.meter = s.meter.release freed := by
  cases s with
  | memory m =>
    rw [delete, MemoryStore.delete]
    cases m.table.get? (Text.utf8 key) with
    | none => exact Or.inl rfl
    | some e => exact Or.inr ⟨e.footprint, rfl⟩
  | tables t =>
    rw [delete, TableStore.delete]
    cases (t.tables.records.get? (Text.utf8 key)).isSome ||
        (t.tables.shards.get? (Text.utf8 key)).isSome with
    | false => exact Or.inl rfl
    | true => exact Or.inr ⟨t.tables.footprint (Text.utf8 key), rfl⟩
  | offline => exact Or.inl rfl

theorem hasRoom_of_accept {m m' : Meter} {replaced added : ℕ}
    (h : m.accept replaced added = .ok m') : m'.HasRoom 0 := by
  rw [Meter.accept] at h
  split at h
  · simp at h
  · next hfits =>
    rw [← Except.ok.inj h, Meter.HasRoom]
    simp only
    omega

/-- No request changes the capacity, and none that is served goes beyond it. -/
theorem serve_meter (h : s ≠ .offline) (r : Request) :
    (r.serve s).2.meter.capacity = s.meter.capacity ∧
      ((r.serve s).2.meter.used ≤ s.meter.used ∨ (r.serve s).2.meter.HasRoom 0) := by
  cases r with
  | put key record data =>
    rcases put_meter h key record data with ⟨e, -, hput⟩ | ⟨m, ha, -, hm⟩
    · simp [Request.serve, hput]
    · rw [Request.serve, hm]
      exact ⟨capacity_of_accept ha, Or.inr (hasRoom_of_accept ha)⟩
  | delete key =>
    rcases meter_delete key s with hm | ⟨freed, hm⟩
    · rw [Request.serve, hm]
      exact ⟨rfl, Or.inl (Nat.le_refl _)⟩
    · rw [Request.serve, hm]
      exact ⟨rfl, Or.inl (Nat.sub_le ..)⟩
  | get | getRecord | size | scan | usage | flush => cases s <;> exact ⟨rfl, Or.inl (Nat.le_refl _)⟩

theorem serve_ne_offline (h : s ≠ .offline) (r : Request) : (r.serve s).2 ≠ .offline := by
  cases s with
  | memory m =>
    cases r with
    | put key record data =>
      simp only [Request.serve, put]
      split <;> simp
    | _ => simp [Request.serve, get, getRecord, delete]
  | tables t =>
    cases r with
    | put key record data =>
      simp only [Request.serve, put]
      split <;> simp
    | _ => simp [Request.serve, get, getRecord, delete]
  | offline => exact absurd rfl h

/-! ## Damage -/

theorem Metered.corrupt (h : s.Metered) (key : String) (data : Bytes) :
    (s.corrupt key data).2.Metered := by
  cases s with
  | memory m =>
    rw [Store.corrupt, MemoryStore.corrupt]
    cases hk : m.table.get? (Text.utf8 key) with
    | none => exact h
    | some e =>
      have htotal := m.table.total_insert Entry.footprint (Text.utf8 key) { e with data }
      have hle := m.table.le_total Entry.footprint (Text.utf8 key)
      rw [hk, Option.elim_some] at htotal hle
      change m.meter.used - e.data.length + data.length =
        (m.table.insert (Text.utf8 key) { e with data }).total Entry.footprint
      rw [show m.meter.used = _ from h]
      simp only [Entry.footprint] at htotal hle ⊢
      omega
  | tables t => exact h
  | offline => exact h

/-! ## Deeds -/

/-- What is done with a store from outside. -/
inductive Deed where
  | ask (r : Request)
  /-- Everything is forgotten. -/
  | clear
  /-- A shard is replaced in memory. -/
  | corrupt (key : String) (data : Bytes)
  /-- The store is closed, and opened again with a capacity. -/
  | reopen (capacity : ℕ)

namespace Deed

/-- The store after a deed. -/
def run (b : Backend) (s : Store) : Deed → Store
  | ask r => (r.serve s).2
  | clear => s.clear
  | corrupt key data => (s.corrupt key data).2
  | reopen capacity => b.reopen capacity s

/-- The store after one deed after the other. -/
def runAll (b : Backend) (deeds : List Deed) (s : Store) : Store :=
  deeds.foldl (run b) s

/-- The capacity that is asked for, after a deed. -/
def asked (capacity : ℕ) : Deed → ℕ
  | reopen capacity => capacity
  | _ => capacity

/-- The deed damages nothing, and asks for no other capacity. -/
def Keeps (capacity : ℕ) : Deed → Prop
  | corrupt _ _ => False
  | reopen c => c = capacity
  | _ => True

end Deed

/-- A store that works, has a capacity, counts what it holds and keeps every record beside its
shard. -/
structure Balanced (capacity : ℕ) (s : Store) : Prop where
  works : s ≠ .offline
  capacity : s.meter.capacity = capacity
  metered : s.Metered
  whole : s.Whole

theorem balanced_create {b : Backend} (hb : b ≠ .offline) (capacity : ℕ) :
    Balanced (b.capacity capacity) (b.create capacity) := by
  have hmetered := metered_create b capacity
  cases b with
  | memory => exact ⟨by simp [Backend.create], rfl, hmetered, whole_memory _⟩
  | persistent | unlimited | temporary =>
    exact ⟨by simp [Backend.create], rfl, hmetered, fun _ => rfl⟩
  | offline => exact absurd rfl hb

/-- What is opened again is new, or holds what it held. -/
theorem Balanced.reopen {b : Backend} (hb : b ≠ .offline) {c : ℕ} (h : Balanced c s)
    (capacity : ℕ) : Balanced (b.capacity capacity) (b.reopen capacity s) := by
  have hmetered := metered_reopen b capacity s
  have hnew := balanced_create hb capacity
  cases b with
  | persistent | unlimited =>
    cases s with
    | tables t => exact ⟨by simp [Backend.reopen], rfl, hmetered, h.whole⟩
    | memory | offline => exact hnew
  | memory | temporary => exact hnew
  | offline => exact absurd rfl hb

/-- **Every deed leaves a store balanced.** -/
theorem Balanced.run {b : Backend} (hb : b ≠ .offline) {c : ℕ} (h : Balanced (b.capacity c) s)
    (d : Deed) : Balanced (b.capacity (d.asked c)) (d.run b s) := by
  cases d with
  | ask r =>
    exact ⟨serve_ne_offline h.works r, (serve_meter h.works r).1.trans h.capacity,
      h.metered.serve r, h.whole.serve r⟩
  | clear =>
    cases s with
    | memory m => exact ⟨by simp [Deed.run, clear], h.capacity, rfl, whole_memory _⟩
    | tables t => exact h
    | offline => exact absurd rfl h.works
  | corrupt key data =>
    have hmetered := h.metered.corrupt key data
    cases s with
    | memory m =>
      refine ⟨by simp [Deed.run, corrupt], Eq.trans ?_ h.capacity, hmetered, whole_memory _⟩
      rw [Deed.run, corrupt, MemoryStore.corrupt]
      cases m.table.get? (Text.utf8 key) <;> rfl
    | tables t => exact h
    | offline => exact absurd rfl h.works
  | reopen capacity => exact h.reopen hb capacity

/-- The bytes that are counted when a store is opened had been counted before. -/
theorem reopen_used_le (h : s.Metered) (b : Backend) (capacity : ℕ) :
    (b.reopen capacity s).meter.used ≤ s.meter.used := by
  cases b with
  | persistent | unlimited =>
    cases s with
    | tables t => exact Nat.le_of_eq (Eq.symm h)
    | memory | offline => exact Nat.zero_le _
  | memory | temporary | offline => exact Nat.zero_le _

theorem balanced_runAll {b : Backend} (hb : b ≠ .offline) (deeds : List Deed) {c : ℕ}
    (h : Balanced (b.capacity c) s) :
    Balanced (b.capacity (deeds.foldl Deed.asked c)) (Deed.runAll b deeds s) := by
  induction deeds generalizing c s with
  | nil => exact h
  | cons d deeds ih => exact ih (h.run hb d)

/-- Nothing but damage, or another capacity, takes a store beyond its capacity. -/
theorem Balanced.hasRoom {b : Backend} (hb : b ≠ .offline) {c : ℕ} (h : Balanced (b.capacity c) s)
    {d : Deed} (hd : d.Keeps c) (hroom : s.meter.HasRoom 0) : (d.run b s).meter.HasRoom 0 := by
  cases d with
  | ask r =>
    obtain ⟨hcapacity, hle | hwithin⟩ := serve_meter h.works r
    · rw [Meter.HasRoom] at hroom
      rw [Meter.HasRoom, Deed.run, hcapacity]
      omega
    · exact hwithin
  | clear =>
    cases s with
    | memory m => exact Or.inr (Nat.zero_le _)
    | tables t => exact hroom
    | offline => exact absurd rfl h.works
  | corrupt key data => exact hd.elim
  | reopen capacity =>
    obtain rfl : capacity = c := hd
    have hcapacity := (h.reopen hb capacity).capacity
    have hle := reopen_used_le h.metered b capacity
    rw [Meter.HasRoom, h.capacity] at hroom
    rw [Meter.HasRoom, Deed.run, hcapacity]
    omega

/-! ## Accounts -/

/-- What a store reports, and what it refuses. -/
structure Accounted (capacity : ℕ) (s : Store) : Prop where
  usage : s.usage = .ok ⟨s.keys.length, s.meter⟩
  /-- Every key is counted once. -/
  ascending : s.keys.Pairwise (· < ·)
  mem_keys : ∀ k, k ∈ s.keys ↔ s.held k ≠ (none, none)
  limit : s.meter.capacity = capacity
  used : s.meter.used = s.storedBytes
  /-- What a write or a removal takes from the count is part of it, -/
  covers : ∀ k, s.Covers k
  /-- and so is a shard that is replaced. -/
  shard_le : ∀ k, (s.held k).2.elim 0 List.length ≤ s.meter.used
  refused : ∀ (key : String) (record data : Bytes) (e : Failure),
    (s.put key record data).1 = .error e ↔
      (0 < capacity ∧ capacity < s.bytesBeside (Text.utf8 key) + (record.length + data.length)) ∧
        e = .storageFull (s.bytesBeside (Text.utf8 key)) capacity
  unchanged : ∀ (key : String) (record data : Bytes) (e : Failure),
    (s.put key record data).1 = .error e → (s.put key record data).2 = s

theorem Balanced.accounted {capacity : ℕ} (h : Balanced capacity s) : Accounted capacity s where
  usage := by
    cases s with
    | memory m =>
      simp [usage, MemoryStore.usage, keys, MemoryStore.keys, Table.keys, Table.size, meter]
    | tables t =>
      simp [usage, TableStore.usage, keys, TableStore.keys, Table.keys, Table.size, meter]
    | offline => exact absurd rfl h.works
  ascending := s.pairwise_keys
  mem_keys k := h.whole.mem_keys_iff
  limit := h.capacity
  used := h.whole.used_eq h.metered
  covers := h.metered.covers
  shard_le k := by
    have hbeside := h.whole.bytesBeside_add k
    rw [entryBytes] at hbeside
    rw [h.whole.used_eq h.metered]
    omega
  refused key record data e := by
    have hbeside : s.meter.used - entryBytes (s.held (Text.utf8 key)) =
        s.bytesBeside (Text.utf8 key) := by
      rw [h.whole.used_eq h.metered, ← h.whole.bytesBeside_add (Text.utf8 key)]
      exact Nat.add_sub_cancel ..
    rw [← h.capacity, ← hbeside, ← Meter.accept_eq_error_iff]
    rcases put_meter h.works key record data with ⟨e', ha, hput⟩ | ⟨m, ha, hput, -⟩
    · simp [ha, hput]
    · simp [ha, hput]
  unchanged key record data e he := by
    rcases put_cases key record data s with ⟨e', hput⟩ | ⟨s', hput, -⟩
    · rw [hput]
    · rw [hput] at he
      simp at he

theorem Deed.Keeps.asked {capacity : ℕ} {d : Deed} (h : d.Keeps capacity) :
    d.asked capacity = capacity := by
  cases d with
  | reopen c => exact h
  | ask | clear | corrupt => rfl

/-- A store that is only opened with one capacity, and not damaged, stays within it. -/
theorem within_runAll {b : Backend} (hb : b ≠ .offline) {c : ℕ} {deeds : List Deed}
    (hdeeds : ∀ d ∈ deeds, d.Keeps c) (h : Balanced (b.capacity c) s) (hroom : s.meter.HasRoom 0) :
    Balanced (b.capacity c) (Deed.runAll b deeds s) ∧
      (Deed.runAll b deeds s).meter.HasRoom 0 := by
  induction deeds generalizing s with
  | nil => exact ⟨h, hroom⟩
  | cons d deeds ih =>
    have hd := hdeeds d List.mem_cons_self
    have hafter := h.run hb d
    rw [hd.asked] at hafter
    exact ih (fun d' hd' => hdeeds d' (List.mem_cons_of_mem d hd')) hafter (h.hasRoom hb hd hroom)

/-- **A store accounts for what it holds**, whatever is done with it: it reports its keys and their
bytes, refuses a shard exactly if there is no room for it beside the other keys, is then as it was,
and takes nothing from a count that it does not contain. If no shard is damaged in it, and it is
opened with one capacity only, then it never holds more than that. -/
theorem accounts_of_run {b : Backend} (hb : b ≠ .offline) (capacity : ℕ) (deeds : List Deed) :
    let s := Deed.runAll b deeds (b.create capacity)
    Accounted (b.capacity (deeds.foldl Deed.asked capacity)) s ∧
      ((∀ d ∈ deeds, d.Keeps capacity) → 0 < b.capacity capacity →
        s.meter.used ≤ b.capacity capacity) := by
  intro s
  have hnew := balanced_create hb capacity
  refine ⟨(balanced_runAll hb deeds hnew).accounted, fun hdeeds hlimited => ?_⟩
  have hempty : (b.create capacity).meter.HasRoom 0 := by
    cases b <;> exact Or.inr (Nat.zero_le _)
  obtain ⟨hs, hroom⟩ := within_runAll hb hdeeds hnew hempty
  rw [Meter.HasRoom, hs.capacity] at hroom
  exact hroom.resolve_left (Nat.ne_of_gt hlimited)

/-- A store of five bytes that was opened again holds three, and refuses three more. -/
theorem accounts_of_reopened :
    let deeds := [.ask (.put "a" [1] [2, 3]), .reopen 5, .ask (.put "b" [] [4, 5, 6])]
    let s := Deed.runAll .persistent deeds (Backend.persistent.create 5)
    Accounted 5 s ∧ s.meter.used ≤ 5 ∧ s.usage = .ok ⟨1, .fresh 5 3⟩ ∧
      (s.put "b" [] [4, 5, 6]).1 = .error (.storageFull 3 5) := by
  intro deeds s
  have h := accounts_of_run (b := .persistent) (by decide) 5 deeds
  refine ⟨h.1, h.2 ?_ (by decide), by decide +kernel, by decide +kernel⟩
  rintro d hd
  simp only [deeds, List.mem_cons, List.not_mem_nil, or_false] at hd
  rcases hd with rfl | rfl | rfl <;> simp [Deed.Keeps]

end Store

end ErasureVault
