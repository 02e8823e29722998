/-
  What stores hold, and what the calls of a node make of it.

  * `Store.held s k` are the record and the shard of the key `k`. A store that refuses a shard is
    as it was (`put_cases`), and removing a key removes both (`held_removeKey`); `Store.unread` is
    what reading leaves alone, and `Node.After k` relates a node to what it is after `k` calls that
    read;
  * a call of a node does the work of its store or nothing (`store_call`), and the values that an
    honest node gives are those of its store (`Honest.callNode_ok`); whether a call passes or fails
    is told by the weather (`callNode_of_passes`, `callNode_of_fails`).
-/
import ErasureVault.Proofs.Calls
import Mathlib.Logic.Function.Basic

namespace ErasureVault

open Function

namespace Store

/-- The record and the shard of a key. -/
def held : Store → Bytes → Option Bytes × Option Bytes
  | memory m, k => ((m.table.get? k).map Entry.record, (m.table.get? k).map Entry.data)
  | tables t, k => (t.tables.records.get? k, t.tables.shards.get? k)
  | offline, _ => (none, none)

/-- The store works, and has room for every shard. -/
def Unlimited : Store → Prop
  | memory m => m.meter.capacity = 0
  | tables t => t.meter.capacity = 0
  | offline => False

/-! ## Writing -/

theorem held_memory_insert (m : MemoryStore) (k record data : Bytes) (meter : Meter) :
    held (memory ⟨m.table.insert k ⟨record, data⟩, meter⟩) =
      update (held (memory m)) k (some record, some data) := by
  funext l
  by_cases hl : l = k <;> simp [held, Table.get?_insert, hl]

theorem held_tables_put (t : TableStore) (k record data : Bytes) (meter : Meter) :
    held (tables ⟨t.tables.applyAll (putWrites k record data), meter⟩) =
      update (held (tables t)) k (some record, some data) := by
  funext l
  by_cases hl : l = k <;>
    simp [held, Tables.applyAll, putWrites, Tables.apply, Table.get?_insert, hl]

theorem capacity_of_accept {m m' : Meter} {replaced added : ℕ}
    (h : m.accept replaced added = .ok m') : m'.capacity = m.capacity := by
  unfold Meter.accept at h
  simp only at h
  split at h
  · simp at h
  · rw [← Except.ok.inj h]

/-- A shard is refused, and nothing changes, or it is stored with its record. -/
theorem put_cases (key : String) (record data : Bytes) (s : Store) :
    (∃ e, s.put key record data = (.error e, s)) ∨
      ∃ s', s.put key record data = (.ok (), s') ∧
        s'.held = update s.held (Text.utf8 key) (some record, some data) ∧
        (s'.Unlimited ↔ s.Unlimited) := by
  cases s with
  | memory m =>
    rw [put, MemoryStore.put]
    cases ha : m.meter.accept (m.footprint (Text.utf8 key)) (record.length + data.length) with
    | error e => exact Or.inl ⟨e, rfl⟩
    | ok meter =>
      refine Or.inr ⟨_, rfl, held_memory_insert .., ?_⟩
      simp only [Unlimited]
      rw [capacity_of_accept ha]
  | tables t =>
    rw [put, TableStore.put]
    cases ha : t.meter.accept (t.tables.footprint (Text.utf8 key))
        (record.length + data.length) with
    | error e => exact Or.inl ⟨e, rfl⟩
    | ok meter =>
      refine Or.inr ⟨_, rfl, held_tables_put .., ?_⟩
      simp only [Unlimited]
      rw [capacity_of_accept ha]
  | offline => exact Or.inl ⟨_, rfl⟩

theorem exists_accept {m : Meter} (hm : m.capacity = 0) (replaced added : ℕ) :
    ∃ m', m.accept replaced added = .ok m' := by
  rw [Meter.accept]
  simp only [hm, Nat.lt_irrefl, false_and, if_false]
  exact ⟨_, rfl⟩

/-- A store without a limit stores every shard. -/
theorem Unlimited.put {s : Store} (h : s.Unlimited) (key : String) (record data : Bytes) :
    (s.put key record data).1 = .ok () := by
  cases s with
  | memory m =>
    obtain ⟨m', hm⟩ := exists_accept h (m.footprint (Text.utf8 key)) (record.length + data.length)
    simp only [Store.put, MemoryStore.put, hm, Except.map]
  | tables t =>
    obtain ⟨m', hm⟩ := exists_accept h (t.tables.footprint (Text.utf8 key))
      (record.length + data.length)
    simp only [Store.put, TableStore.put, hm, Except.map]
  | offline => exact h.elim

/-! ## Reading -/

/-- The store without its count of reads. -/
def unread : Store → Store
  | memory m => memory { m with meter := { m.meter with reads := 0 } }
  | tables t => tables { t with meter := { t.meter with reads := 0 } }
  | offline => offline

theorem unread_get (key : String) (s : Store) : (s.get key).2.unread = s.unread := by
  cases s <;> rfl

theorem unread_getRecord (key : String) (s : Store) : (s.getRecord key).2.unread = s.unread := by
  cases s <;> rfl

@[simp] theorem held_unread (s : Store) : s.unread.held = s.held := by
  cases s <;> rfl

@[simp] theorem unlimited_unread {s : Store} : s.unread.Unlimited ↔ s.Unlimited := by
  cases s <;> rfl

theorem held_eq_of_unread {s s' : Store} (h : s'.unread = s.unread) : s'.held = s.held := by
  rw [← held_unread s', h, held_unread]

theorem get_ok {key : String} {s : Store} {o : Option Bytes} (h : (s.get key).1 = .ok o) :
    (s.held (Text.utf8 key)).2 = o := by
  cases s with
  | memory m => exact Except.ok.inj h
  | tables t => exact Except.ok.inj h
  | offline => simp [get] at h

theorem getRecord_ok {key : String} {s : Store} {o : Option Bytes}
    (h : (s.getRecord key).1 = .ok o) : (s.held (Text.utf8 key)).1 = o := by
  cases s with
  | memory m => exact Except.ok.inj h
  | tables t => exact Except.ok.inj h
  | offline => simp [getRecord] at h

theorem Unlimited.get {s : Store} (h : s.Unlimited) (key : String) :
    (s.get key).1 = .ok (s.held (Text.utf8 key)).2 := by
  cases s with
  | memory m => rfl
  | tables t => rfl
  | offline => exact h.elim

theorem Unlimited.getRecord {s : Store} (h : s.Unlimited) (key : String) :
    (s.getRecord key).1 = .ok (s.held (Text.utf8 key)).1 := by
  cases s with
  | memory m => rfl
  | tables t => rfl
  | offline => exact h.elim

/-! ## Removing -/

/-- Removing a key removes its record and its shard, if there are any. -/
theorem held_delete (key : String) (s : Store) :
    (s.delete key).2.held = update s.held (Text.utf8 key) (none, none) := by
  funext l
  cases s with
  | memory m =>
    simp only [delete, MemoryStore.delete]
    cases hk : m.table.get? (Text.utf8 key) with
    | none => by_cases hl : l = Text.utf8 key <;> simp [held, hl, hk]
    | some e => by_cases hl : l = Text.utf8 key <;> simp [held, hl, Table.get?_erase]
  | tables t =>
    by_cases hl : l = Text.utf8 key <;>
      simp [delete, TableStore.delete, held, Tables.applyAll, deleteWrites, Tables.apply,
        Table.get?_erase, hl]
  | offline => by_cases hl : l = Text.utf8 key <;> simp [delete, held, hl]

end Store

/-! ## The work of a node -/

namespace Node

theorem found_snd {α : Type} (key : String) (r : StoreResult (Option α)) :
    (found key r).2 = r.2 := by
  rcases r with ⟨_ | _, _⟩ <;> rfl

theorem found_ok {α : Type} {key : String} {r : StoreResult (Option α)} {a : α}
    (h : (found key r).1 = .ok a) : r.1 = .ok (some a) := by
  rcases r with ⟨_ | _ | _, _⟩
  · simp [found] at h
  · simp [found, absent] at h
  · exact congrArg _ (congrArg _ (Except.ok.inj h))

theorem found_of_ok {α : Type} {key : String} {r : StoreResult (Option α)} {o : Option α}
    (h : r.1 = .ok o) : (found key r).1 = absent key o := by
  obtain ⟨_, s⟩ := r
  obtain rfl := h
  rfl

theorem storedShard_ok {key : String} {s : Store} {b : Bytes} (h : (storedShard key s).1 = .ok b) :
    (s.held (Text.utf8 key)).2 = some b :=
  Store.get_ok (found_ok h)

theorem storedRecord_ok {key : String} {s : Store} {b : Bytes}
    (h : (storedRecord key s).1 = .ok b) : (s.held (Text.utf8 key)).1 = some b :=
  Store.getRecord_ok (found_ok h)

/-- A store gives what it holds. -/
theorem storedShard_of_held {key : String} {s : Store} {b : Bytes}
    (h : (s.held (Text.utf8 key)).2 = some b) : (storedShard key s).1 = .ok b := by
  cases s with
  | memory m => exact (found_of_ok rfl).trans (congrArg (absent key) h)
  | tables t => exact (found_of_ok rfl).trans (congrArg (absent key) h)
  | offline => simp [Store.held] at h

theorem storedRecord_of_held {key : String} {s : Store} {b : Bytes}
    (h : (s.held (Text.utf8 key)).1 = some b) : (storedRecord key s).1 = .ok b := by
  cases s with
  | memory m => exact (found_of_ok rfl).trans (congrArg (absent key) h)
  | tables t => exact (found_of_ok rfl).trans (congrArg (absent key) h)
  | offline => simp [Store.held] at h

theorem unread_storedShard (key : String) (s : Store) :
    (storedShard key s).2.unread = s.unread := by
  rw [storedShard, found_snd, Store.unread_get]

theorem unread_storedRecord (key : String) (s : Store) :
    (storedRecord key s).2.unread = s.unread := by
  rw [storedRecord, found_snd, Store.unread_getRecord]

@[simp] theorem held_removeKey (key : String) (s : Store) :
    (removeKey key s).2.held = update s.held (Text.utf8 key) (none, none) := by
  rw [← Store.held_delete, removeKey]
  rcases s.delete key with ⟨_ | _ | _, _⟩ <;> rfl

/-! ## Calls -/

section
variable {α : Type} {m : Method} {work : Store → StoreResult α} {forge : Bytes → α → α} {n : Node}

/-- The values that the node gives are those of its store. -/
def Honest (n : Node) : Prop :=
  ∀ k m b, (n.weather k m).effect ≠ .forge b

/-- A call does the work of the store, or nothing. -/
theorem store_call (m : Method) (work : Store → StoreResult α) (forge : Bytes → α → α) (n : Node) :
    (call m work forge n).2 = n ∨
      (call m work forge n).2 = { n with store := (work n.store).2 } := by
  rw [call]
  cases (n.weather n.calls m).effect with
  | pass => exact Or.inr rfl
  | refuse e => exact Or.inl rfl
  | panic => exact Or.inl rfl
  | forge b => exact Or.inr rfl
  | lose e => exact Or.inr rfl
  | breakOff keys e => exact Or.inr rfl

/-- A call that gives a value did its work; the value is that of the store, or forged. -/
theorem call_value {a : α} (h : (call m work forge n).1.reaction = .value a) :
    ∃ a', (work n.store).1 = .ok a' ∧ (a' = a ∨ ∃ b, (n.weather n.calls m).effect = .forge b) ∧
      (call m work forge n).2 = { n with store := (work n.store).2 } := by
  have hof {o : Outcome α} (h : Reaction.ofOutcome o = .value a) : o = .ok a := by
    cases o with
    | ok b => exact congrArg _ (Reaction.value.inj h)
    | error e => simp [Reaction.ofOutcome] at h
  rw [call] at h ⊢
  cases he : (n.weather n.calls m).effect with
  | pass =>
    simp only [he] at h ⊢
    exact ⟨a, hof h, Or.inl rfl, trivial⟩
  | breakOff keys e =>
    simp only [he] at h ⊢
    exact ⟨a, hof h, Or.inl rfl, trivial⟩
  | refuse e => simp [he] at h
  | panic => simp [he] at h
  | forge b =>
    simp only [he] at h ⊢
    cases hw : (work n.store).1 with
    | ok a' => exact ⟨a', rfl, Or.inr ⟨b, rfl⟩, trivial⟩
    | error e => simp [hw, Except.map, Reaction.ofOutcome] at h
  | lose e => simp [he] at h

theorem Honest.call_value (hn : n.Honest) {a : α}
    (h : (call m work forge n).1.reaction = .value a) :
    (work n.store).1 = .ok a ∧ (call m work forge n).2 = { n with store := (work n.store).2 } := by
  obtain ⟨a', ha', hforge, hafter⟩ := Node.call_value h
  obtain rfl : a' = a := hforge.resolve_right fun ⟨b, hb⟩ => hn _ _ b hb
  exact ⟨ha', hafter⟩

/-- A call leaves the weather as it is, and counts. -/
theorem callNode_frame (t : Terms) (slot : ℕ) (m : Method) (work : Store → StoreResult α)
    (forge : Bytes → α → α) (n : Node) :
    let after := (callNode t slot (call m work forge) n).2
    after.weather = n.weather ∧ after.calls = n.calls + 1 ∧
      (after.store = n.store ∨ after.store = (work n.store).2) := by
  intro after
  rcases callNode_node t slot (call m work forge) n with h | h
  · rw [show after = n.tick from h]
    exact ⟨rfl, rfl, Or.inl rfl⟩
  · rw [show after = (call m work forge n).2.tick from h]
    rcases store_call m work forge n with h | h
    · rw [h]
      exact ⟨rfl, rfl, Or.inl rfl⟩
    · rw [h]
      exact ⟨rfl, rfl, Or.inr rfl⟩

/-- The node after `k` calls that did nothing but read. -/
structure After (k : ℕ) (n n' : Node) : Prop where
  weather : n'.weather = n.weather
  calls : n'.calls = n.calls + k
  unread : n'.store.unread = n.store.unread

theorem After.refl (n : Node) : n.After 0 n :=
  ⟨rfl, rfl, rfl⟩

theorem After.trans {j k : ℕ} {n n' n'' : Node} (h : n.After j n') (h' : n'.After k n'') :
    n.After (j + k) n'' where
  weather := h'.weather.trans h.weather
  calls := by rw [h'.calls, h.calls, Nat.add_assoc]
  unread := h'.unread.trans h.unread

theorem After.held {k : ℕ} {n n' : Node} (h : n.After k n') : n'.store.held = n.store.held :=
  Store.held_eq_of_unread h.unread

theorem After.honest {k : ℕ} {n n' : Node} (h : n.After k n') (hn : n.Honest) : n'.Honest := by
  intro t m' b
  rw [h.weather]
  exact hn t m' b

theorem after_tick (n : Node) : n.After 1 n.tick :=
  ⟨rfl, rfl, rfl⟩

/-- A call that reads does nothing else, however it ends. -/
theorem after_callNode (hw : (work n.store).2.unread = n.store.unread) (t : Terms) (slot : ℕ) :
    n.After 1 (callNode t slot (call m work forge) n).2 := by
  obtain ⟨hweather, hcalls, hs⟩ := callNode_frame t slot m work forge n
  refine ⟨hweather, hcalls, ?_⟩
  rcases hs with hs | hs
  · rw [hs]
  · rw [hs, hw]

theorem after_getRecord (t : Terms) (slot : ℕ) (key : String) (n : Node) :
    n.After 1 (callNode t slot (Node.getRecord key) n).2 :=
  after_callNode (unread_storedRecord key n.store) t slot

theorem after_getSize (t : Terms) (slot : ℕ) (key : String) (n : Node) :
    n.After 1 (callNode t slot (Node.getSize key) n).2 := by
  have hread := (callNode_mapOutcome t slot SizeRecord.decode (Node.getRecord key) n).2
  rw [show (callNode t slot (Node.getSize key) n).2 = _ from hread]
  exact after_getRecord t slot key n

/-- The size that a slot tells is read from its record. -/
theorem outcome_getSize (t : Terms) (slot : ℕ) (key : String) (n : Node) :
    (callNode t slot (Node.getSize key) n).1.outcome =
      (callNode t slot (Node.getRecord key) n).1.outcome.bind SizeRecord.decode :=
  (callNode_mapOutcome t slot SizeRecord.decode (Node.getRecord key) n).1

theorem getSize_ok {t : Terms} {slot : ℕ} {key : String} {n : Node} {r : SizeRecord}
    (h : (callNode t slot (Node.getSize key) n).1.outcome = .ok r) :
    ∃ b, (callNode t slot (Node.getRecord key) n).1.outcome = .ok b ∧
      SizeRecord.decode b = .ok r :=
  callNode_mapOutcome_ok h

/-- The same for a slot that may be left out. -/
theorem after_getUnless (t : Terms) (slot : ℕ) (key : String) (left : Prop) [Decidable left]
    (n : Node) : n.After 1 (callNode t slot (fun n =>
      if left then (⟨0, .value []⟩, n) else n.get key) n).2 := by
  by_cases hleft : left
  · simp only [hleft, if_true]
    rcases callNode_node t slot (fun n => (⟨0, .value ([] : Bytes)⟩, n)) n with hn | hn
    · rw [hn]
      exact n.after_tick
    · rw [hn]
      exact n.after_tick
  · simp only [hleft, if_false]
    exact after_callNode (unread_storedShard key n.store) t slot

/-- A slot that is left out gives nothing. -/
theorem eq_nil_of_left {t : Terms} {slot : ℕ} {key : String} {left : Prop} [Decidable left]
    (hleft : left) {x : Bytes} (h : (callNode t slot (fun n =>
      if left then (⟨0, .value []⟩, n) else n.get key) n).1.outcome = .ok x) : x = [] := by
  simp only [hleft, if_true] at h
  exact (Reaction.value.inj (ErasureVault.callNode_ok h).1).symm

/-- The values that an honest node gives are those of its store. -/
theorem Honest.callNode_ok (hn : n.Honest) {t : Terms} {slot : ℕ} {a : α}
    (h : (callNode t slot (call m work forge) n).1.outcome = .ok a) : (work n.store).1 = .ok a :=
  (hn.call_value (ErasureVault.callNode_ok h).1).1

theorem Honest.callNode (hn : n.Honest) (t : Terms) (slot : ℕ) (m : Method)
    (work : Store → StoreResult α) (forge : Bytes → α → α) :
    (callNode t slot (call m work forge) n).2.Honest := by
  intro k m' b
  rw [(callNode_frame t slot m work forge n).1]
  exact hn k m' b

end

end Node

/-! ## Weather -/

namespace Disturbance

/-- The call goes through in time. -/
def Passes (limit : Option ℕ) (d : Disturbance) : Prop :=
  d.effect = .pass ∧ ∀ l ∈ limit, d.delay ≤ l

/-- The call does not reach the store in time; a failure with which it is refused has `P`. -/
def Fails (limit : Option ℕ) (P : Failure → Prop) (d : Disturbance) : Prop :=
  (∃ l ∈ limit, l < d.delay) ∨ d.effect = .panic ∨ ∃ e, P e ∧ d.effect = .refuse e

theorem calm_passes (limit : Option ℕ) : calm.Passes limit :=
  ⟨rfl, fun _ _ => Nat.zero_le _⟩

end Disturbance

section
variable {α : Type} {m : Method} {work : Store → StoreResult α} {forge : Bytes → α → α} {n : Node}
  {label : String} {limit : Option ℕ} {start slot : ℕ}

theorem delay_call (m : Method) (work : Store → StoreResult α) (forge : Bytes → α → α) (n : Node) :
    (Node.call m work forge n).1.delay = (n.weather n.calls m).delay := by
  rw [Node.call]
  cases (n.weather n.calls m).effect <;> rfl

/-- A caller who does not give up stops a call only at the limit. -/
theorem cutOff_never_eq_none_iff {delay : ℕ} :
    Terms.cutOff ⟨label, .never, limit, start⟩ slot delay = none ↔ ∀ l ∈ limit, delay ≤ l := by
  rw [Terms.cutOff, Terms.cutOff.late]
  cases limit with
  | none => simp
  | some l => simp

theorem category_of_cutOff_never {delay elapsed : ℕ} {e : Failure}
    (h : Terms.cutOff ⟨label, .never, limit, start⟩ slot delay = some (e, elapsed)) :
    e.category = .transport := by
  rw [Terms.cutOff, Terms.cutOff.late] at h
  cases limit with
  | none => simp at h
  | some l =>
    simp only at h
    split at h
    · rw [← (Prod.mk.inj (Option.some.inj h)).1]
      rfl
    · simp at h

/-- A call that goes through does the work of the store. -/
theorem callNode_of_passes (h : (n.weather n.calls m).Passes limit) :
    let r := callNode ⟨label, .never, limit, start⟩ slot (Node.call m work forge) n
    r.1.outcome = (work n.store).1 ∧ r.2 = Node.tick { n with store := (work n.store).2 } := by
  intro r
  have hcut : Terms.cutOff ⟨label, .never, limit, start⟩ slot
      (Node.call m work forge n).1.delay = none := by
    rw [cutOff_never_eq_none_iff, delay_call]
    exact h.2
  obtain ⟨ho, hn⟩ := callNode_of_reached hcut
  rw [ho, hn, Node.call]
  simp only [h.1]
  refine ⟨?_, trivial⟩
  cases (work n.store).1 <;> rfl

/-- A call that does not go through leaves the store as it is. -/
theorem callNode_of_fails {P : Failure → Prop} (hP : ∀ e : Failure, e.category = .transport → P e)
    (h : (n.weather n.calls m).Fails limit P) :
    let r := callNode ⟨label, .never, limit, start⟩ slot (Node.call m work forge) n
    (∃ e, P e ∧ r.1.outcome = .error e) ∧ r.2 = n.tick := by
  intro r
  cases hcut : Terms.cutOff ⟨label, .never, limit, start⟩ slot
      (Node.call m work forge n).1.delay with
  | some stop =>
    obtain ⟨e, elapsed⟩ := stop
    obtain ⟨ho, hn⟩ := callNode_of_stopped hcut
    exact ⟨⟨e, hP e (category_of_cutOff_never hcut), ho⟩, hn⟩
  | none =>
    obtain ⟨ho, hn⟩ := callNode_of_reached hcut
    rw [cutOff_never_eq_none_iff, delay_call] at hcut
    rw [ho, hn, Node.call]
    rcases h with ⟨l, hl, hlate⟩ | h | ⟨e, he, h⟩
    · exact absurd (hcut l hl) (Nat.not_le.2 hlate)
    · simp only [h]
      exact ⟨⟨_, hP _ rfl, rfl⟩, trivial⟩
    · simp only [h]
      exact ⟨⟨e, he, rfl⟩, trivial⟩

end

end ErasureVault
