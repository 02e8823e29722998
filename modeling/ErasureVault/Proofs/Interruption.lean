/-
  Interruption: table stores whose operations stop half way.

  * `Request.writes` are the single writes that a request makes in a table store, in their order
    (`serve_tables`), and `Store.interrupted` is the store that is opened again after the request
    stopped in between. A write sets one cell of the two tables, so that all writes make the same of
    the tables as all of them after some of them (`applyAll_take_then_all`), and none of them
    changes what is counted beside its key (`bytesBeside_applyAll`);
  * `Tables.Backed`: every record has its shard. A request writes a shard before its record and
    removes it after its record (`allowsAll_intended`), so that no record lacks its shard at any
    time (`Backed.take_writes`). A shard may be left without its record;
  * `Event` is a request that a store serves, or one that stops. After any number of them the
    records have their shards, the bytes are counted, the keys that no stopped request was about are
    as the others left them, and a request that stopped can be made again
    (`consistent_after_interruptions`).
-/
import ErasureVault.Proofs.Accounts

namespace ErasureVault

open Function

/-! ## Writes -/

/-- A place in one of the tables. -/
inductive Cell where
  | shard (k : Bytes)
  | record (k : Bytes)

def Cell.key : Cell → Bytes
  | shard k | record k => k

namespace TableWrite

def key : TableWrite → Bytes
  | setShard k _ | setRecord k _ | dropShard k | dropRecord k => k

/-- The place that is written. -/
def cell : TableWrite → Cell
  | setShard k _ | dropShard k => .shard k
  | setRecord k _ | dropRecord k => .record k

theorem key_cell (w : TableWrite) : w.cell.key = w.key := by
  cases w <;> rfl

/-- What is there afterwards. -/
def value : TableWrite → Option Bytes
  | setShard _ b | setRecord _ b => some b
  | dropShard _ | dropRecord _ => none

end TableWrite

namespace Tables

def look (t : Tables) : Cell → Option Bytes
  | .shard k => t.shards.get? k
  | .record k => t.records.get? k

theorem ext_look {t u : Tables} (h : t.look = u.look) : t = u := by
  obtain ⟨shards, records⟩ := t
  obtain ⟨shards', records'⟩ := u
  congr
  · exact Table.ext_get? fun k => congrFun h (.shard k)
  · exact Table.ext_get? fun k => congrFun h (.record k)

theorem look_apply_self (t : Tables) (w : TableWrite) : (t.apply w).look w.cell = w.value := by
  cases w <;> simp [apply, look, TableWrite.cell, TableWrite.value, Table.get?_insert,
    Table.get?_erase]

theorem look_apply_of_ne {w : TableWrite} {p : Cell} (h : p ≠ w.cell) (t : Tables) :
    (t.apply w).look p = t.look p := by
  cases w <;> cases p <;>
    simp_all [apply, look, TableWrite.cell, Table.get?_insert, Table.get?_erase]

/-- Writes change nothing else. -/
theorem look_applyAll {ws : List TableWrite} {p : Cell} (h : p ∉ ws.map TableWrite.cell)
    (t : Tables) : (t.applyAll ws).look p = t.look p := by
  induction ws generalizing t with
  | nil => rfl
  | cons w ws ih =>
    rw [List.map_cons, List.mem_cons, not_or] at h
    rw [applyAll, List.foldl_cons, ← applyAll, ih h.2, look_apply_of_ne h.1]

/-- What was where something is written does not matter. -/
theorem applyAll_congr {ws : List TableWrite} {t u : Tables}
    (h : ∀ p, p ∉ ws.map TableWrite.cell → t.look p = u.look p) :
    t.applyAll ws = u.applyAll ws := by
  induction ws generalizing t u with
  | nil => exact ext_look (funext fun p => h p List.not_mem_nil)
  | cons w ws ih =>
    refine ih fun p hp => ?_
    by_cases hw : p = w.cell
    · rw [hw, look_apply_self, look_apply_self]
    · rw [look_apply_of_ne hw, look_apply_of_ne hw]
      exact h p (by simp_all)

/-- **All writes after some of them are all writes.** -/
theorem applyAll_take_then_all (t : Tables) (ws : List TableWrite) (n : ℕ) :
    (t.applyAll (ws.take n)).applyAll ws = t.applyAll ws := by
  refine applyAll_congr fun p hp => look_applyAll (fun hmem => hp ?_) t
  exact ((List.take_sublist n ws).map TableWrite.cell).subset hmem

/-! ### Counted bytes -/

/-- The bytes that are not under a key. -/
def bytesBeside (t : Tables) (k : Bytes) : ℕ :=
  t.totalBytes - t.footprint k

theorem bytesBeside_apply (t : Tables) (w : TableWrite) :
    (t.apply w).bytesBeside w.key = t.bytesBeside w.key := by
  have hshard := t.shards.le_total List.length w.key
  have hrecord := t.records.le_total List.length w.key
  cases w with
  | setShard k data =>
    have htotal := t.shards.total_insert List.length k data
    simp only [bytesBeside, totalBytes, footprint, apply, TableWrite.key, Table.get?_insert,
      if_true, Option.elim_some] at *
    omega
  | setRecord k record =>
    have htotal := t.records.total_insert List.length k record
    simp only [bytesBeside, totalBytes, footprint, apply, TableWrite.key, Table.get?_insert,
      if_true, Option.elim_some] at *
    omega
  | dropShard k =>
    have htotal := t.shards.total_erase List.length k
    simp only [bytesBeside, totalBytes, footprint, apply, TableWrite.key, Table.get?_erase, if_true,
      Option.elim_none] at *
    omega
  | dropRecord k =>
    have htotal := t.records.total_erase List.length k
    simp only [bytesBeside, totalBytes, footprint, apply, TableWrite.key, Table.get?_erase, if_true,
      Option.elim_none] at *
    omega

/-- Writes under a key do not change what is counted beside it. -/
theorem bytesBeside_applyAll {ws : List TableWrite} {k : Bytes} (h : ∀ w ∈ ws, w.key = k)
    (t : Tables) : (t.applyAll ws).bytesBeside k = t.bytesBeside k := by
  induction ws generalizing t with
  | nil => rfl
  | cons w ws ih =>
    rw [applyAll, List.foldl_cons, ← applyAll, ih fun w' hw' => h w' (List.mem_cons_of_mem w hw')]
    obtain rfl := h w List.mem_cons_self
    exact t.bytesBeside_apply w

end Tables

/-! ## The writes of a request -/

namespace Store

/-- The key that a request writes or removes. -/
def Request.target : Request → Option Bytes
  | .put key _ _ => some (Text.utf8 key)
  | .delete key => some (Text.utf8 key)
  | _ => none

/-- The writes that a request is to make, in their order. -/
def Request.intended : Request → List TableWrite
  | .put key record data => putWrites (Text.utf8 key) record data
  | .delete key => deleteWrites (Text.utf8 key)
  | _ => []

/-- The writes that a request makes: none if it is refused. -/
def Request.writes (s : Store) (r : Request) : List TableWrite :=
  if (r.serve s).1.refused then [] else r.intended

theorem key_of_mem_intended {r : Request} {w : TableWrite} (h : w ∈ r.intended) :
    r.target = some w.key := by
  cases r with
  | put key record data =>
    simp only [Request.intended, putWrites, List.mem_cons, List.not_mem_nil, or_false] at h
    rcases h with rfl | rfl <;> rfl
  | delete key =>
    simp only [Request.intended, deleteWrites, List.mem_cons, List.not_mem_nil, or_false] at h
    rcases h with rfl | rfl <;> rfl
  | get | getRecord | size | scan | usage | flush => simp [Request.intended] at h

theorem key_of_mem_writes {r : Request} {s : Store} {w : TableWrite} (h : w ∈ r.writes s) :
    r.target = some w.key := by
  rw [Request.writes] at h
  split at h
  · simp at h
  · exact key_of_mem_intended h

/-- **What a request makes of the tables are its writes**, one after the other. -/
theorem serve_tables (r : Request) (t : TableStore) :
    ∃ meter, (r.serve (tables t)).2 = tables ⟨t.tables.applyAll (r.writes (tables t)), meter⟩ := by
  cases r with
  | put key record data =>
    rw [Request.writes, Request.serve, put, TableStore.put]
    cases ha : t.meter.accept (t.tables.footprint (Text.utf8 key))
        (record.length + data.length) with
    | error e => exact ⟨t.meter, rfl⟩
    | ok meter => exact ⟨meter, rfl⟩
  | delete key => exact ⟨_, rfl⟩
  | get | getRecord | size | scan | usage => exact ⟨_, rfl⟩
  | flush => exact ⟨_, rfl⟩

/-- The store after some writes to its tables, which nothing has counted. -/
def write (ws : List TableWrite) : Store → Store
  | tables t => tables { t with tables := t.tables.applyAll ws }
  | s => s

/-- The store that is opened after a request that stopped when it had made `n` of its writes. -/
def interrupted (capacity : ℕ) (r : Request) (n : ℕ) (s : Store) : Store :=
  Backend.persistent.reopen capacity (s.write ((r.writes s).take n))

end Store

/-! ## Records with their shards -/

/-- Every record has its shard. -/
def Tables.Backed (t : Tables) : Prop :=
  ∀ k, (t.records.get? k).isSome → (t.shards.get? k).isSome

namespace Tables

variable {t : Tables}

/-- A record is written where its shard is, and a shard is removed where no record is. -/
def Allows (t : Tables) : TableWrite → Prop
  | .setShard _ _ | .dropRecord _ => True
  | .setRecord k _ => (t.shards.get? k).isSome
  | .dropShard k => t.records.get? k = none

/-- Each write is allowed after those before it. -/
def AllowsAll (t : Tables) : List TableWrite → Prop
  | [] => True
  | w :: ws => t.Allows w ∧ (t.apply w).AllowsAll ws

/-- A write that is allowed leaves no record without its shard. -/
theorem Backed.apply (h : t.Backed) {w : TableWrite} (hw : t.Allows w) : (t.apply w).Backed := by
  intro l hl
  by_cases hl' : l = w.key
  · subst hl'
    cases w with
    | setShard k data => simp [Tables.apply, TableWrite.key, Table.get?_insert]
    | setRecord k record => exact hw
    | dropShard k =>
      have hnone : (t.records.get? k).isSome := hl
      rw [show t.records.get? k = none from hw] at hnone
      simp at hnone
    | dropRecord k => simp [Tables.apply, TableWrite.key, Table.get?_erase] at hl
  · have hother (p : Cell) (hp : p.key = l) : (t.apply w).look p = t.look p :=
      look_apply_of_ne (fun he => hl' (by rw [← hp, he, w.key_cell])) t
    have hrecord : (t.apply w).records.get? l = t.records.get? l := hother (.record l) rfl
    have hshard : (t.apply w).shards.get? l = t.shards.get? l := hother (.shard l) rfl
    rw [hrecord] at hl
    rw [hshard]
    exact h l hl

/-- After some of the writes, too. -/
theorem Backed.take (h : t.Backed) {ws : List TableWrite} (hws : t.AllowsAll ws) (n : ℕ) :
    (t.applyAll (ws.take n)).Backed := by
  induction ws generalizing t n with
  | nil =>
    rw [List.take_nil]
    exact h
  | cons w ws ih =>
    cases n with
    | zero => exact h
    | succ n => exact ih (h.apply hws.1) hws.2 n

/-- A shard is written before its record, and a record is removed before its shard. -/
theorem allowsAll_intended (t : Tables) (r : Store.Request) : t.AllowsAll r.intended := by
  cases r with
  | put key record data =>
    refine ⟨trivial, ?_, trivial⟩
    simp [Allows, apply, Table.get?_insert]
  | delete key =>
    refine ⟨trivial, ?_, trivial⟩
    simp [Allows, apply, Table.get?_erase]
  | get | getRecord | size | scan | usage | flush => exact trivial

/-- **No record lacks its shard at any time of a request.** -/
theorem Backed.take_writes (h : t.Backed) (r : Store.Request) (s : Store) (n : ℕ) :
    (t.applyAll ((r.writes s).take n)).Backed := by
  refine h.take ?_ n
  rw [Store.Request.writes]
  split
  · exact trivial
  · exact t.allowsAll_intended r

end Tables

namespace Store

/-- Whatever a store tells a record of, by its list of keys or by the record itself, it has the
shard of. -/
structure Backed (s : Store) : Prop where
  shard : ∀ k, (s.held k).1.isSome → (s.held k).2.isSome
  listed : ∀ items key, s.scan = .ok items → .ok key ∈ items → ∃ b, (s.get key).1 = .ok (some b)
  probed : ∀ key record, (s.getRecord key).1 = .ok (some record) →
    ∃ b, (s.get key).1 = .ok (some b)

theorem backed_tables {t : TableStore} (h : t.tables.Backed) : (tables t).Backed := by
  have hget (key : String) (hrecord : (t.tables.records.get? (Text.utf8 key)).isSome) :
      ∃ b, ((tables t).get key).1 = .ok (some b) := by
    obtain ⟨b, hb⟩ := Option.isSome_iff_exists.1 (h _ hrecord)
    exact ⟨b, congrArg Except.ok hb⟩
  refine ⟨h, fun items key hitems hkey => hget key ?_, fun key record hrecord => hget key ?_⟩
  · obtain rfl := Except.ok.inj hitems
    obtain ⟨k, hk, hscanned⟩ := List.mem_map.1 hkey
    rw [TableStore.keys, Table.mem_keys_iff, ← Option.isSome_iff_exists] at hk
    rwa [utf8_of_scannedKey hscanned]
  · have hstored : t.tables.records.get? (Text.utf8 key) = some record := getRecord_ok hrecord
    rw [hstored]
    rfl

/-! ## Stopped and made again -/

/-- A table store of a capacity that counts its bytes and has a shard for every record. -/
structure Settled (capacity : ℕ) (t : TableStore) : Prop where
  limit : t.meter.capacity = capacity
  counted : t.meter.used = t.tables.totalBytes
  backed : t.tables.Backed

variable {capacity : ℕ} {t : TableStore}

theorem settled_openOn {t : Tables} (h : t.Backed) : Settled capacity (.openOn capacity t) :=
  ⟨rfl, rfl, h⟩

/-- Settled stores with the same tables are the same but for what has been counted. -/
theorem Settled.uncounted_eq {t' : TableStore} (h : Settled capacity t) (h' : Settled capacity t')
    (htables : t'.tables = t.tables) : (tables t').uncounted = (tables t).uncounted := by
  simp only [uncounted, Meter.uncounted, h.limit, h'.limit, h.counted, h'.counted, htables]

/-- A request that is served makes its writes, and leaves a store settled. -/
theorem Settled.serve (h : Settled capacity t) (r : Request) :
    ∃ t', (r.serve (tables t)).2 = tables t' ∧
      t'.tables = t.tables.applyAll (r.writes (tables t)) ∧ Settled capacity t' := by
  have hmetered := Metered.serve (s := tables t) h.counted r
  have hlimit := (serve_meter (s := tables t) (by simp) r).1
  obtain ⟨meter, hs⟩ := serve_tables r t
  rw [hs] at hmetered hlimit
  refine ⟨_, hs, rfl, hlimit.trans h.limit, hmetered, ?_⟩
  have hbacked := h.backed.take_writes r (tables t) (r.writes (tables t)).length
  rwa [List.take_length] at hbacked

/-- A request that stops leaves a store settled, too. -/
theorem Settled.interrupted (h : Settled capacity t) (r : Request) (n : ℕ) :
    ∃ t', Store.interrupted capacity r n (tables t) = tables t' ∧
      t'.tables = t.tables.applyAll ((r.writes (tables t)).take n) ∧ Settled capacity t' :=
  ⟨_, rfl, rfl, settled_openOn (h.backed.take_writes r (tables t) n)⟩

/-- A shard is refused for what is counted beside its key. -/
theorem Settled.refused_put (h : Settled capacity t) (key : String) (record data : Bytes) :
    ((Request.put key record data).serve (tables t)).1.refused ↔
      0 < capacity ∧ capacity < t.tables.bytesBeside (Text.utf8 key) +
        (record.length + data.length) := by
  have haccept (e : Failure) :
      t.meter.accept (t.tables.footprint (Text.utf8 key)) (record.length + data.length) = .error e ↔
        _ := Meter.accept_eq_error_iff
  rw [h.limit, h.counted, ← Tables.bytesBeside] at haccept
  simp only [Request.serve, Store.put, TableStore.put]
  cases ha : t.meter.accept (t.tables.footprint (Text.utf8 key)) (record.length + data.length) with
  | error e =>
    simp only [Except.map, Reply.refused, true_iff]
    exact ((haccept e).1 ha).1
  | ok meter =>
    simp only [Except.map, Reply.refused, Bool.false_eq_true, false_iff]
    intro hfull
    have herror := (haccept _).2 ⟨hfull, rfl⟩
    rw [ha] at herror
    cases herror

/-- Stores that count as many bytes beside the key of a request refuse it or do not refuse it
alike, and it makes the same writes in both. -/
theorem Settled.writes_eq {t' : TableStore} (h : Settled capacity t) (h' : Settled capacity t')
    {r : Request}
    (hbeside : ∀ k, r.target = some k → t'.tables.bytesBeside k = t.tables.bytesBeside k) :
    r.writes (tables t') = r.writes (tables t) := by
  have hrefused : (r.serve (tables t')).1.refused = (r.serve (tables t)).1.refused := by
    cases r with
    | put key record data =>
      rw [Bool.eq_iff_iff, h.refused_put, h'.refused_put, hbeside _ rfl]
    | get | getRecord | delete | size | scan | usage | flush => rfl
  rw [Request.writes, hrefused, ← Request.writes]

/-- **A request that stopped can be made again**: the store is then as if it had not stopped, but
for the counts of reads, writes and deletions, which start again when the store is opened. -/
theorem Settled.serve_interrupted (h : Settled capacity t) (r : Request) (n : ℕ) :
    (r.serve (Store.interrupted capacity r n (tables t))).2.uncounted =
      (r.serve (tables t)).2.uncounted := by
  obtain ⟨t₁, hs₁, ht₁, h₁⟩ := h.interrupted r n
  obtain ⟨t₂, hs₂, ht₂, h₂⟩ := h₁.serve r
  obtain ⟨t₃, hs₃, ht₃, h₃⟩ := h.serve r
  have hwrites : r.writes (tables t₁) = r.writes (tables t) := by
    refine h.writes_eq h₁ fun k hk => ?_
    rw [ht₁]
    refine Tables.bytesBeside_applyAll (fun w hw => ?_) t.tables
    have hw := key_of_mem_writes (List.mem_of_mem_take hw)
    exact Option.some.inj (hw.symm.trans hk)
  rw [hs₁, hs₂, hs₃]
  refine h₃.uncounted_eq h₂ ?_
  rw [ht₂, ht₃, hwrites, ht₁, Tables.applyAll_take_then_all]

/-! ## Runs -/

/-- What happens to a store. -/
inductive Event where
  /-- A request is served. -/
  | served (r : Request)
  /-- A request stops after `n` of its writes, and the store is opened again. -/
  | stopped (r : Request) (n : ℕ)

namespace Event

def run (capacity : ℕ) (s : Store) : Event → Store
  | served r => (r.serve s).2
  | stopped r n => interrupted capacity r n s

def runAll (capacity : ℕ) (events : List Event) (s : Store) : Store :=
  events.foldl (run capacity) s

/-- The requests that were completed in a run: those that were served, and not refused. -/
def completed (capacity : ℕ) : List Event → Store → List Request
  | [], _ => []
  | served r :: events, s =>
    if (r.serve s).1.refused then completed capacity events (r.serve s).2
    else r :: completed capacity events (r.serve s).2
  | stopped r n :: events, s => completed capacity events (interrupted capacity r n s)

end Event

theorem Settled.run (h : Settled capacity t) (event : Event) :
    ∃ t', event.run capacity (tables t) = tables t' ∧ Settled capacity t' := by
  cases event with
  | served r =>
    obtain ⟨t', hs, -, h'⟩ := h.serve r
    exact ⟨t', hs, h'⟩
  | stopped r n =>
    obtain ⟨t', hs, -, h'⟩ := h.interrupted r n
    exact ⟨t', hs, h'⟩

/-- Nothing that happens to a store unsettles it. -/
theorem Settled.runAll (h : Settled capacity t) (events : List Event) :
    ∃ t', Event.runAll capacity events (tables t) = tables t' ∧ Settled capacity t' := by
  induction events generalizing t with
  | nil => exact ⟨t, rfl, h⟩
  | cons event events ih =>
    obtain ⟨t', hs, h'⟩ := h.run event
    obtain ⟨t'', hs', h''⟩ := ih h'
    refine ⟨t'', ?_, h''⟩
    rw [Event.runAll, List.foldl_cons, hs]
    exact hs'

/-- A request that stops leaves the other keys alone. -/
theorem held_interrupted (capacity : ℕ) {r : Request} {k : Bytes} (hk : r.target ≠ some k) (n : ℕ)
    (t : TableStore) : (interrupted capacity r n (tables t)).held k = (tables t).held k := by
  have hother (p : Cell) (hp : p.key = k) :
      (t.tables.applyAll ((r.writes (tables t)).take n)).look p = t.tables.look p := by
    refine Tables.look_applyAll (fun hmem => ?_) t.tables
    obtain ⟨w, hw, rfl⟩ := List.mem_map.1 hmem
    rw [key_of_mem_writes (List.mem_of_mem_take hw), ← w.key_cell, hp] at hk
    exact hk rfl
  exact Prod.ext (hother (.record k) rfl) (hother (.shard k) rfl)

/-- What requests make of an entry depends on that entry only. -/
theorem foldl_effect_congr {h h' : Bytes → Option Bytes × Option Bytes} {k : Bytes}
    (hk : h k = h' k) (requests : List Request) :
    requests.foldl Request.effect h k = requests.foldl Request.effect h' k := by
  induction requests generalizing h h' with
  | nil => exact hk
  | cons r requests ih =>
    refine ih ?_
    cases r with
    | put key record data => by_cases hl : k = Text.utf8 key <;> simp [Request.effect, hl, hk]
    | delete key => by_cases hl : k = Text.utf8 key <;> simp [Request.effect, hl, hk]
    | get | getRecord | size | scan | usage | flush => exact hk

/-- A key that no stopped request was about is as the completed ones left it. -/
theorem held_runAll (h : Settled capacity t) {k : Bytes} {events : List Event}
    (hk : ∀ r n, Event.stopped r n ∈ events → r.target ≠ some k) :
    (Event.runAll capacity events (tables t)).held k =
      (Event.completed capacity events (tables t)).foldl Request.effect (tables t).held k := by
  induction events generalizing t with
  | nil => rfl
  | cons event events ih =>
    obtain ⟨t', hs, h'⟩ := h.run event
    have htail := ih h' fun r n hmem => hk r n (List.mem_cons_of_mem _ hmem)
    rw [Event.runAll, List.foldl_cons, hs, ← Event.runAll, htail]
    cases event with
    | served r =>
      have hserved : (r.serve (tables t)).2 = tables t' := hs
      have hheld := held_serve r (tables t)
      rw [hserved] at hheld
      rw [Event.completed, hserved, hheld]
      split <;> rfl
    | stopped r n =>
      have hstopped : interrupted capacity r n (tables t) = tables t' := hs
      have hheld := held_interrupted capacity (hk r n List.mem_cons_self) n t
      rw [hstopped] at hheld
      rw [Event.completed, hstopped]
      exact foldl_effect_congr hheld _

/-- **A store survives that its operations stop half way**, as often as they do, each single write
happening wholly or not at all. Every record has its shard; a key that no stopped request was about
is as the completed requests left it; the bytes in both tables are counted; and a request that stops
now can be made again when the store is opened, and leaves it as if it had not stopped. -/
theorem consistent_after_interruptions (capacity : ℕ) (events : List Event) :
    let new := Backend.persistent.create capacity
    let s := Event.runAll capacity events new
    s.Backed ∧
      (∀ k, (∀ r n, Event.stopped r n ∈ events → r.target ≠ some k) →
        s.held k =
          (Event.completed capacity events new).foldl Request.effect (fun _ => (none, none)) k) ∧
      (∃ t, s = tables t ∧ t.meter.used = t.tables.totalBytes) ∧
      ∀ (r : Request) n,
        (r.serve (interrupted capacity r n s)).2.uncounted = (r.serve s).2.uncounted := by
  intro new s
  have hnew : Settled capacity (.openOn capacity .empty) := settled_openOn fun _ h => h
  obtain ⟨t, hs, ht⟩ := hnew.runAll events
  have hs : s = tables t := hs
  refine ⟨?_, fun k hk => held_runAll hnew hk, ⟨t, hs, ht.counted⟩, fun r n => ?_⟩
  · rw [hs]
    exact backed_tables ht.backed
  · rw [hs]
    exact ht.serve_interrupted r n

/-- A shard that was stored before its record is left, is counted, and disturbs no other key. -/
theorem consistent_after_half_put :
    let events := [.served (.put "a" [1] [2]), .stopped (.put "b" [3] [4]) 1]
    let s := Event.runAll 8 events (Backend.persistent.create 8)
    s.Backed ∧ s.held (Text.utf8 "a") = (some [1], some [2]) ∧
      s.held (Text.utf8 "b") = (none, some [4]) ∧ s.usage = .ok ⟨1, .fresh 8 3⟩ := by
  intro events s
  obtain ⟨hbacked, hheld, -, -⟩ := consistent_after_interruptions 8 events
  refine ⟨hbacked, (hheld (Text.utf8 "a") fun r n hmem => ?_).trans (by decide +kernel),
    by decide +kernel, by decide +kernel⟩
  obtain ⟨rfl, rfl⟩ : r = .put "b" [3] [4] ∧ n = 1 := by simpa [events] using hmem
  decide +kernel

end Store

end ErasureVault
