/-
  Memory stores and table stores answer alike.

  * `Store.Request` is what a store can be asked, and `Store.Reply` what it answers
    (`Request.serve`); `Store.replies reopen turns` are the replies to a sequence of requests, the
    store being closed and opened again by `reopen` in between. Stores in a relation that every
    request and every reopening keeps give the same replies (`replies_of_related`). The bytes are
    always counted (`Metered.serve`), so that no subtraction from a count goes below zero;
  * `Twins capacity m t`: the two stores hold the same, and have counted the same. Every request
    finds the same answer in both and leaves them so (`Twins.serve`), and a table store that is
    opened again counts the bytes that it holds afresh, which are those that a memory store has
    counted (`Twins.reopen`);
  * hence the replies are the same, but that the counts of reads, writes and deletions are lost with
    the table store (`memory_interchangeable`).
-/
import ErasureVault.Proofs.Room
import ErasureVault.Proofs.Scans

namespace ErasureVault

open Function

namespace Store

/-! ## Requests -/

/-- What a store can be asked. -/
inductive Request where
  | put (key : String) (record data : Bytes)
  | get (key : String)
  | getRecord (key : String)
  | delete (key : String)
  | size (key : String)
  | scan
  | usage
  | flush

/-- What a store answers. -/
inductive Reply where
  | done (o : Except Failure Unit)
  | bytes (o : Except Failure (Option Bytes))
  | removed (o : Except Failure Bool)
  | length (o : Except Failure (Option ℕ))
  | keys (o : Except Failure (List (Except Failure String)))
  | usage (o : Except Failure Usage)
  deriving DecidableEq

/-- What a store answers to a request, and the store after it. -/
def Request.serve (s : Store) : Request → Reply × Store
  | .put key record data => let (o, s) := s.put key record data; (.done o, s)
  | .get key => let (o, s) := s.get key; (.bytes o, s)
  | .getRecord key => let (o, s) := s.getRecord key; (.bytes o, s)
  | .delete key => let (o, s) := s.delete key; (.removed o, s)
  | .size key => (.length (s.size key), s)
  | .scan => (.keys s.scan, s)
  | .usage => (.usage s.usage, s)
  | .flush => (.done s.flush, s)

/-- What is done with a store. -/
inductive Turn where
  | ask (r : Request)
  /-- The store is closed and opened again. -/
  | reopen

/-- The replies of a store, one to each request. -/
def replies (reopen : Store → Store) : List Turn → Store → List Reply
  | [], _ => []
  | .ask r :: turns, s => (r.serve s).1 :: replies reopen turns (r.serve s).2
  | .reopen :: turns, s => replies reopen turns (reopen s)

/-- The store after its replies. -/
def after (reopen : Store → Store) : List Turn → Store → Store
  | [], s => s
  | .ask r :: turns, s => after reopen turns (r.serve s).2
  | .reopen :: turns, s => after reopen turns (reopen s)

/-- What every request and every reopening keeps holds at the end. -/
theorem after_of_kept {I : Store → Prop} {reopen : Store → Store}
    (hreopen : ∀ s, I s → I (reopen s)) (hserve : ∀ (r : Request) s, I s → I (r.serve s).2)
    (turns : List Turn) {s : Store} (h : I s) : I (after reopen turns s) := by
  induction turns generalizing s with
  | nil => exact h
  | cons turn turns ih =>
    cases turn with
    | ask r => exact ih (hserve r s h)
    | reopen => exact ih (hreopen s h)

/-- **Related stores give the same replies**, up to what `f` forgets of them, if every request and
every reopening keeps them related. -/
theorem replies_of_related {β : Type} {R : Store → Store → Prop} {f : Reply → β}
    {reopen reopen' : Store → Store} (hreopen : ∀ s t, R s t → R (reopen s) (reopen' t))
    (hserve : ∀ (r : Request) s t, R s t →
      f (r.serve s).1 = f (r.serve t).1 ∧ R (r.serve s).2 (r.serve t).2)
    (turns : List Turn) {s t : Store} (h : R s t) :
    (replies reopen turns s).map f = (replies reopen' turns t).map f := by
  induction turns generalizing s t with
  | nil => rfl
  | cons turn turns ih =>
    cases turn with
    | ask r =>
      obtain ⟨hreply, hafter⟩ := hserve r s t h
      simp only [replies, List.map_cons, hreply, ih hafter]
    | reopen => exact ih (hreopen s t h)

/-! ## Counted bytes -/

/-- Every request leaves the bytes counted. -/
theorem Metered.serve {s : Store} (h : s.Metered) (r : Request) : (r.serve s).2.Metered := by
  cases r with
  | put key record data => exact h.put key record data
  | delete key => exact h.delete key
  | get key => exact h.of_unread (unread_get key s)
  | getRecord key => exact h.of_unread (unread_getRecord key s)
  | size key => exact h
  | scan => exact h
  | usage => exact h
  | flush => exact h

theorem metered_create (b : Backend) (capacity : ℕ) : (b.create capacity).Metered := by
  cases b with
  | memory | persistent | unlimited | temporary => exact rfl
  | offline => exact trivial

/-- A store that is opened again counts its bytes afresh. -/
theorem metered_reopen (b : Backend) (capacity : ℕ) (s : Store) :
    (b.reopen capacity s).Metered := by
  cases b with
  | persistent | unlimited => cases s <;> exact rfl
  | memory => exact metered_create .memory capacity
  | temporary => exact metered_create .temporary capacity
  | offline => exact trivial

end Store

/-! ## Counts -/

/-- The meter without its counts of reads, writes and deletions. -/
def Meter.uncounted (m : Meter) : Meter :=
  .fresh m.capacity m.used

@[simp] theorem Meter.uncounted_uncounted (m : Meter) : m.uncounted.uncounted = m.uncounted := rfl

/-- What a meter accepts does not depend on the counts. -/
theorem Meter.accept_uncounted (m : Meter) (replaced added : ℕ) :
    (∃ e, m.accept replaced added = .error e ∧ m.uncounted.accept replaced added = .error e) ∨
      ∃ m₁ m₂, m.accept replaced added = .ok m₁ ∧ m.uncounted.accept replaced added = .ok m₂ ∧
        m₂.uncounted = m₁.uncounted := by
  by_cases hfull : 0 < m.capacity ∧ m.capacity < m.used - replaced + added
  · exact Or.inl ⟨_, if_pos hfull, if_pos hfull⟩
  · exact Or.inr ⟨_, _, if_neg hfull, if_neg hfull, rfl⟩

namespace Store

/-- The store without its counts of reads, writes and deletions. -/
def uncounted : Store → Store
  | memory m => memory { m with meter := m.meter.uncounted }
  | tables t => tables { t with meter := t.meter.uncounted }
  | offline => offline

/-- The reply without the counts of reads, writes and deletions. -/
def Reply.uncounted : Reply → Reply
  | .usage o => .usage (o.map fun u => { u with meter := u.meter.uncounted })
  | r => r

@[simp] theorem uncounted_uncounted (s : Store) : s.uncounted.uncounted = s.uncounted := by
  cases s <;> rfl

theorem put_uncounted (key : String) (record data : Bytes) (s : Store) :
    (s.uncounted.put key record data).1 = (s.put key record data).1 ∧
      (s.uncounted.put key record data).2.uncounted = (s.put key record data).2.uncounted := by
  cases s with
  | memory m =>
    have hfootprint (meter : Meter) (k : Bytes) :
        MemoryStore.footprint { m with meter } k = m.footprint k := rfl
    rcases m.meter.accept_uncounted (m.footprint (Text.utf8 key)) (record.length + data.length) with
      ⟨e, he, he'⟩ | ⟨m₁, m₂, h₁, h₂, hm⟩
    · simp only [uncounted, put, MemoryStore.put, hfootprint, he, he', Except.map,
        Meter.uncounted_uncounted, and_self]
    · simp only [uncounted, put, MemoryStore.put, hfootprint, h₁, h₂, Except.map, hm, and_self]
  | tables t =>
    rcases t.meter.accept_uncounted (t.tables.footprint (Text.utf8 key))
      (record.length + data.length) with ⟨e, he, he'⟩ | ⟨m₁, m₂, h₁, h₂, hm⟩
    · simp only [uncounted, put, TableStore.put, he, he', Except.map, Meter.uncounted_uncounted,
        and_self]
    · simp only [uncounted, put, TableStore.put, h₁, h₂, Except.map, hm, and_self]
  | offline => exact ⟨rfl, rfl⟩

theorem delete_uncounted (key : String) (s : Store) :
    (s.uncounted.delete key).1 = (s.delete key).1 ∧
      (s.uncounted.delete key).2.uncounted = (s.delete key).2.uncounted := by
  cases s with
  | memory m =>
    simp only [uncounted, delete, MemoryStore.delete]
    cases m.table.get? (Text.utf8 key) <;> exact ⟨rfl, rfl⟩
  | tables t =>
    refine ⟨rfl, ?_⟩
    simp only [uncounted, delete, TableStore.delete]
    cases (t.tables.records.get? (Text.utf8 key)).isSome ||
      (t.tables.shards.get? (Text.utf8 key)).isSome <;> rfl
  | offline => exact ⟨rfl, rfl⟩

/-- **Nothing but the counts depends on the counts.** -/
theorem serve_uncounted (r : Request) (s : Store) :
    (r.serve s.uncounted).1.uncounted = (r.serve s).1.uncounted ∧
      (r.serve s.uncounted).2.uncounted = (r.serve s).2.uncounted := by
  cases r with
  | put key record data =>
    obtain ⟨hreply, hafter⟩ := s.put_uncounted key record data
    exact ⟨congrArg Reply.done hreply, hafter⟩
  | delete key =>
    obtain ⟨hreply, hafter⟩ := s.delete_uncounted key
    exact ⟨congrArg Reply.removed hreply, hafter⟩
  | get key => cases s <;> exact ⟨rfl, rfl⟩
  | getRecord key => cases s <;> exact ⟨rfl, rfl⟩
  | size key => cases s <;> exact ⟨rfl, rfl⟩
  | scan => cases s <;> exact ⟨rfl, rfl⟩
  | usage => cases s <;> exact ⟨rfl, rfl⟩
  | flush => cases s <;> exact ⟨rfl, rfl⟩

/-- Counts that start again are seen in the counts only. -/
theorem replies_uncounted (turns : List Turn) (s : Store) :
    (replies uncounted turns s).map Reply.uncounted = (replies id turns s).map Reply.uncounted := by
  refine replies_of_related (R := fun s t => s.uncounted = t.uncounted) (fun s t h => ?_)
    (fun r s t h => ?_) turns rfl
  · rw [uncounted_uncounted]
    exact h
  · obtain ⟨hs, hs'⟩ := serve_uncounted r s
    obtain ⟨ht, ht'⟩ := serve_uncounted r t
    exact ⟨hs.symm.trans (h ▸ ht), hs'.symm.trans (h ▸ ht')⟩

end Store

/-! ## Twins -/

/-- A memory store and a table store of one capacity that hold the same and have counted the same,
where the bytes that are counted are those that are held. -/
structure Twins (capacity : ℕ) (m : MemoryStore) (t : TableStore) : Prop where
  held : (Store.memory m).held = (Store.tables t).held
  meter : m.meter = t.meter
  capacity : t.meter.capacity = capacity
  metered : (Store.tables t).Metered

/-- Twins among all stores. -/
def Store.TwinsOf (capacity : ℕ) (s s' : Store) : Prop :=
  ∃ m t, s = .memory m ∧ s' = .tables t ∧ Twins capacity m t

namespace Twins

open Store

variable {capacity : ℕ} {m : MemoryStore} {t : TableStore}

/-! ### What twins answer -/

theorem record (h : Twins capacity m t) (k : Bytes) :
    (m.table.get? k).map Entry.record = t.tables.records.get? k :=
  congrArg Prod.fst (congrFun h.held k)

theorem shard (h : Twins capacity m t) (k : Bytes) :
    (m.table.get? k).map Entry.data = t.tables.shards.get? k :=
  congrArg Prod.snd (congrFun h.held k)

theorem footprint (h : Twins capacity m t) (k : Bytes) : m.footprint k = t.tables.footprint k := by
  rw [footprint_memory, footprint_tables, h.held]

theorem size (h : Twins capacity m t) (k : Bytes) : m.size k = t.size k := by
  rw [MemoryStore.size, TableStore.size, ← h.shard, Option.map_map]
  rfl

theorem keys (h : Twins capacity m t) : m.keys = t.keys := by
  refine eq_of_pairwise_lt m.table.pairwise_keys t.tables.records.pairwise_keys fun k => ?_
  rw [MemoryStore.keys, TableStore.keys, Table.mem_keys_iff, Table.mem_keys_iff,
    ← Option.isSome_iff_exists, ← Option.isSome_iff_exists, ← h.record, Option.isSome_map]

/-- Both count as many keys as they list. -/
theorem usage (h : Twins capacity m t) : m.usage = t.usage := by
  have hsize : m.table.size = t.tables.records.size := by
    simpa [MemoryStore.keys, TableStore.keys, Table.keys, Table.size] using
      congrArg List.length h.keys
  rw [MemoryStore.usage, TableStore.usage, hsize, h.meter]

/-! ### What they are after an answer -/

theorem read (h : Twins capacity m t) :
    Twins capacity { m with meter := m.meter.read } { t with meter := t.meter.read } :=
  ⟨h.held, congrArg Meter.read h.meter, h.capacity, h.metered⟩

/-- Twins store a shard or refuse it for the same reason. -/
theorem put (h : Twins capacity m t) (key : String) (record data : Bytes) :
    ((memory m).put key record data).1 = ((tables t).put key record data).1 ∧
      TwinsOf capacity ((memory m).put key record data).2 ((tables t).put key record data).2 := by
  have hmetered := h.metered.put key record data
  have haccept : t.meter.accept (t.tables.footprint (Text.utf8 key)) (record.length + data.length) =
      m.meter.accept (m.footprint (Text.utf8 key)) (record.length + data.length) := by
    rw [h.meter, h.footprint]
  cases ha : m.meter.accept (m.footprint (Text.utf8 key)) (record.length + data.length) with
  | error e =>
    have hm : (memory m).put key record data = (.error e, memory m) := by
      simp only [Store.put, MemoryStore.put, ha, Except.map]
    have ht : (tables t).put key record data = (.error e, tables t) := by
      simp only [Store.put, TableStore.put, haccept, ha, Except.map]
    rw [hm, ht]
    exact ⟨rfl, m, t, rfl, rfl, h⟩
  | ok meter =>
    have hm : (memory m).put key record data =
        (.ok (), memory ⟨m.table.insert (Text.utf8 key) ⟨record, data⟩, meter⟩) := by
      simp only [Store.put, MemoryStore.put, ha, Except.map]
    have ht : (tables t).put key record data =
        (.ok (), tables ⟨t.tables.applyAll (putWrites (Text.utf8 key) record data), meter⟩) := by
      simp only [Store.put, TableStore.put, haccept, ha, Except.map]
    rw [ht] at hmetered
    rw [hm, ht]
    refine ⟨rfl, _, _, rfl, rfl, ?_, rfl, ?_, hmetered⟩
    · rw [held_memory_insert, held_tables_put, h.held]
    · rw [capacity_of_accept ha, h.meter, h.capacity]

/-- Twins remove the same, and free as many bytes. -/
theorem delete (h : Twins capacity m t) (key : String) :
    ((memory m).delete key).1 = ((tables t).delete key).1 ∧
      TwinsOf capacity ((memory m).delete key).2 ((tables t).delete key).2 := by
  have hheld : ((memory m).delete key).2.held = ((tables t).delete key).2.held := by
    rw [held_delete, held_delete, h.held]
  have hmetered := h.metered.delete key
  have hfootprint := h.footprint (Text.utf8 key)
  have hrecord := h.record (Text.utf8 key)
  have hshard := h.shard (Text.utf8 key)
  simp only [Store.delete, MemoryStore.delete, TableStore.delete, ← hrecord, ← hshard,
    ← hfootprint, Option.isSome_map, Bool.or_self] at hheld hmetered ⊢
  cases hk : m.table.get? (Text.utf8 key) with
  | none =>
    rw [hk] at hheld hmetered
    exact ⟨rfl, _, _, rfl, rfl, hheld, h.meter, h.capacity, hmetered⟩
  | some e =>
    have he : m.footprint (Text.utf8 key) = e.footprint := by
      rw [MemoryStore.footprint, hk, Option.elim_some]
    rw [hk] at hheld hmetered
    refine ⟨rfl, _, _, rfl, rfl, hheld, ?_, h.capacity, hmetered⟩
    simp [he, h.meter]

/-- **Every request finds the same answer in twins, and leaves twins.** -/
theorem serve (h : Twins capacity m t) (r : Store.Request) :
    (r.serve (memory m)).1 = (r.serve (tables t)).1 ∧
      TwinsOf capacity (r.serve (memory m)).2 (r.serve (tables t)).2 := by
  cases r with
  | put key record data =>
    obtain ⟨hreply, hafter⟩ := h.put key record data
    exact ⟨congrArg Store.Reply.done hreply, hafter⟩
  | delete key =>
    obtain ⟨hreply, hafter⟩ := h.delete key
    exact ⟨congrArg Store.Reply.removed hreply, hafter⟩
  | get key => exact ⟨congrArg (Store.Reply.bytes ∘ .ok) (h.shard _), _, _, rfl, rfl, h.read⟩
  | getRecord key => exact ⟨congrArg (Store.Reply.bytes ∘ .ok) (h.record _), _, _, rfl, rfl, h.read⟩
  | size key => exact ⟨congrArg (Store.Reply.length ∘ .ok) (h.size _), m, t, rfl, rfl, h⟩
  | scan =>
    have hkeys : (memory m).scan = (tables t).scan := by
      rw [scan, scan, h.keys]
    exact ⟨congrArg Store.Reply.keys hkeys, m, t, rfl, rfl, h⟩
  | usage => exact ⟨congrArg (Store.Reply.usage ∘ .ok) h.usage, m, t, rfl, rfl, h⟩
  | flush => exact ⟨rfl, m, t, rfl, rfl, h⟩

/-- A table store that is opened again is the twin of a memory store whose counts start again. -/
theorem reopen (h : Twins capacity m t) :
    TwinsOf capacity (memory m).uncounted (Backend.persistent.reopen capacity (tables t)) := by
  refine ⟨_, _, rfl, rfl, h.held, ?_, rfl, rfl⟩
  have hused : t.meter.used = t.tables.totalBytes := h.metered
  simp only [Meter.uncounted, h.meter, h.capacity, hused]
  rfl

/-- New stores are twins. -/
theorem create (capacity : ℕ) :
    TwinsOf capacity (Backend.memory.create capacity) (Backend.persistent.create capacity) :=
  ⟨_, _, rfl, rfl, rfl, rfl, rfl, rfl⟩

/-- New stores answer alike, if twins are left when they are closed and opened again. -/
theorem replies {reopen reopen' : Store → Store}
    (hreopen : ∀ s s', TwinsOf capacity s s' → TwinsOf capacity (reopen s) (reopen' s'))
    (turns : List Store.Turn) : Store.replies reopen turns (Backend.memory.create capacity) =
      Store.replies reopen' turns (Backend.persistent.create capacity) := by
  have hmap := replies_of_related (f := id) hreopen (fun r s s' h => ?_) turns (create capacity)
  · simpa using hmap
  · obtain ⟨m, t, rfl, rfl, h⟩ := h
    exact h.serve r

end Twins

/-- **A memory store and a table store of one capacity are interchangeable.** To the same requests
they give the same replies. If the table store is closed and opened again in between, then it
replies like a memory store whose counts of reads, writes and deletions start again at that moment,
and but for these counts like one that is never closed. Neither ever takes more bytes from its count
than it has counted. -/
theorem Store.memory_interchangeable (capacity : ℕ) :
    let memory := Backend.memory.create capacity
    let persistent := Backend.persistent.create capacity
    let reopen := Backend.persistent.reopen capacity
    (∀ requests : List Request,
      replies id (requests.map .ask) memory = replies id (requests.map .ask) persistent) ∧
    ∀ turns : List Turn,
      replies uncounted turns memory = replies reopen turns persistent ∧
      (replies id turns memory).map Reply.uncounted =
        (replies reopen turns persistent).map Reply.uncounted ∧
      ∀ k, (after id turns memory).Covers k ∧ (after reopen turns persistent).Covers k := by
  intro memory persistent reopen
  have hreopen (turns : List Turn) :
      replies uncounted turns memory = replies reopen turns persistent := by
    refine Twins.replies (fun s s' h => ?_) turns
    obtain ⟨m, t, rfl, rfl, h⟩ := h
    exact h.reopen
  refine ⟨fun requests => Twins.replies (fun _ _ h => h) _,
    fun turns => ⟨hreopen turns, ?_, fun k => ⟨Metered.covers ?_ k, Metered.covers ?_ k⟩⟩⟩
  · rw [← replies_uncounted, hreopen turns]
  · exact after_of_kept (fun _ h => h) (fun r _ h => h.serve r) turns (metered_create ..)
  · exact after_of_kept (fun s _ => metered_reopen _ _ s) (fun r _ h => h.serve r) turns
      (metered_create ..)

/-- A table store of five bytes counts those that it holds when it is opened again. -/
example :
    Store.replies (Backend.persistent.reopen 5)
        [.ask (.put "a" [1] [2, 3]), .reopen, .ask (.put "b" [] [4, 5, 6]), .ask .usage]
        (Backend.persistent.create 5) =
      [.done (.ok ()), .done (.error (.storageFull 3 5)), .usage (.ok ⟨1, .fresh 5 3⟩)] := by
  decide +kernel

end ErasureVault
