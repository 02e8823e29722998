/-
  Operations on different blocks do not meet.

  * `AboutKey k work`: a piece of work of a store looks at the entry of the key `k` only, and leaves
    the others alone, as long as the store has room. `Node.Twins` are two nodes with one entry under
    a key; calls about the key end alike on them (`Twins.call`);
  * `Action` lists the operations on a block, `Operation` adds the caller and the faults that each
    slot meets meanwhile. Begun on clusters with the same entries under the key of its block, an
    operation ends alike, and leaves all other entries as they were (`Operation.run_twins`);
  * hence operations on different blocks give the same answers and leave the same contents in either
    order (`operations_separate`).
-/
import ErasureVault.Cluster.Write
import ErasureVault.Proofs.Acknowledged
import ErasureVault.Proofs.Alike

namespace ErasureVault

open Function

variable {α : Type}

/-! ## The entry of a key -/

/-- The work looks at the entry of one key, and leaves the others alone. -/
structure AboutKey (k : Bytes) (work : Store → StoreResult α) : Prop where
  same : ∀ s s' : Store, s.Unlimited → s'.Unlimited → s.held k = s'.held k →
    (work s).1 = (work s').1 ∧ (work s).2.held k = (work s').2.held k
  unlimited : ∀ s : Store, s.Unlimited → (work s).2.Unlimited
  others : ∀ s : Store, ∀ l ≠ k, (work s).2.held l = s.held l

theorem aboutKey_put (key : String) (record data : Bytes) :
    AboutKey (Text.utf8 key) (Store.put key record data) := by
  have hcases (s : Store) := Store.put_cases key record data s
  have hput {s : Store} (hs : s.Unlimited) : ∃ s', s.put key record data = (.ok (), s') ∧
      s'.held = update s.held (Text.utf8 key) (some record, some data) ∧ s'.Unlimited := by
    rcases hcases s with ⟨e, h⟩ | ⟨s', h, hheld, hunlimited⟩
    · have hok := hs.put key record data
      rw [h] at hok
      cases hok
    · exact ⟨s', h, hheld, hunlimited.2 hs⟩
  refine ⟨fun s s' hs hs' _ => ?_, fun s hs => ?_, fun s l hl => ?_⟩
  · obtain ⟨t, ht, hheld, -⟩ := hput hs
    obtain ⟨t', ht', hheld', -⟩ := hput hs'
    rw [ht, ht', hheld, hheld', update_self, update_self]
    exact ⟨rfl, rfl⟩
  · obtain ⟨t, ht, -, hunlimited⟩ := hput hs
    rw [ht]
    exact hunlimited
  · rcases hcases s with ⟨e, h⟩ | ⟨t, h, hheld, -⟩
    · rw [h]
    · rw [h, hheld, update_of_ne hl]

/-- Reading is about a key if what is read is told by its entry. -/
theorem aboutKey_read {k : Bytes} {work : Store → StoreResult α}
    (answer : Option Bytes × Option Bytes → Outcome α)
    (hanswer : ∀ s : Store, s.Unlimited → (work s).1 = answer (s.held k))
    (hread : ∀ s : Store, (work s).2.unread = s.unread) : AboutKey k work where
  same s s' hs hs' hk := by
    rw [hanswer s hs, hanswer s' hs', Store.held_eq_of_unread (hread s),
      Store.held_eq_of_unread (hread s'), hk]
    exact ⟨rfl, rfl⟩
  unlimited s hs := by
    rwa [← Store.unlimited_unread, hread s, Store.unlimited_unread]
  others s l _ := by
    rw [Store.held_eq_of_unread (hread s)]

theorem aboutKey_storedShard (key : String) :
    AboutKey (Text.utf8 key) (Node.storedShard key) :=
  aboutKey_read (fun entry => Node.absent key entry.2)
    (fun _ hs => Node.found_of_ok (hs.get key)) (Node.unread_storedShard key)

theorem aboutKey_storedRecord (key : String) :
    AboutKey (Text.utf8 key) (Node.storedRecord key) :=
  aboutKey_read (fun entry => Node.absent key entry.1)
    (fun _ hs => Node.found_of_ok (hs.getRecord key)) (Node.unread_storedRecord key)

namespace Store

/-- A store says whether it held something under a key that is removed. -/
theorem Unlimited.delete {s : Store} (h : s.Unlimited) (key : String) :
    (s.delete key).1 =
        .ok ((s.held (Text.utf8 key)).1.isSome || (s.held (Text.utf8 key)).2.isSome) ∧
      (s.delete key).2.Unlimited := by
  cases s with
  | memory m =>
    rw [Store.delete, MemoryStore.delete, held]
    cases m.table.get? (Text.utf8 key) with
    | none => exact ⟨rfl, h⟩
    | some e => exact ⟨rfl, h⟩
  | tables t =>
    rw [Store.delete, TableStore.delete, held]
    refine ⟨rfl, ?_⟩
    cases (t.tables.records.get? (Text.utf8 key)).isSome ||
        (t.tables.shards.get? (Text.utf8 key)).isSome <;> exact h
  | offline => exact h.elim

end Store

theorem aboutKey_removeKey (key : String) : AboutKey (Text.utf8 key) (Node.removeKey key) := by
  have hsplit (s : Store) : Node.removeKey key s =
      ((s.delete key).1.bind fun held => if held then .ok () else .error (.keyUnknown key),
        (s.delete key).2) := by
    rw [Node.removeKey]
    rcases s.delete key with ⟨_ | _ | _, _⟩ <;> rfl
  refine ⟨fun s s' hs hs' hk => ⟨?_, ?_⟩, fun s hs => ?_, fun s l hl => ?_⟩
  · rw [hsplit, hsplit, (hs.delete key).1, (hs'.delete key).1, hk]
  · rw [Node.held_removeKey, Node.held_removeKey, update_self, update_self]
  · rw [hsplit]
    exact (hs.delete key).2
  · rw [Node.held_removeKey, update_of_ne hl]

/-! ## Nodes with one entry -/

/-- Two nodes that meet the same faults and hold the same under a key; what the first holds under
other keys is `held`, and what the second holds is `held'`. -/
structure Node.Twins (k : Bytes) (held held' : Bytes → Option Bytes × Option Bytes) (n n' : Node) :
    Prop where
  weather : n.weather = n'.weather
  calls : n.calls = n'.calls
  unlimited : n.store.Unlimited
  unlimited' : n'.store.Unlimited
  entry : n.store.held k = n'.store.held k
  others : ∀ l ≠ k, n.store.held l = held l
  others' : ∀ l ≠ k, n'.store.held l = held' l

namespace Node.Twins

variable {key : String} {k : Bytes} {held held' : Bytes → Option Bytes × Option Bytes} {n n' : Node}

theorem tick (h : n.Twins k held held' n') : n.tick.Twins k held held' n'.tick :=
  ⟨h.weather, congrArg (· + 1) h.calls, h.unlimited, h.unlimited', h.entry, h.others, h.others'⟩

/-- The stores after work that is about the key. -/
theorem work (h : n.Twins k held held' n') {work : Store → StoreResult α} (hw : AboutKey k work) :
    Twins k held held' { n with store := (work n.store).2 }
      { n' with store := (work n'.store).2 } where
  weather := h.weather
  calls := h.calls
  unlimited := hw.unlimited _ h.unlimited
  unlimited' := hw.unlimited _ h.unlimited'
  entry := (hw.same _ _ h.unlimited h.unlimited' h.entry).2
  others l hl := (hw.others _ l hl).trans (h.others l hl)
  others' l hl := (hw.others _ l hl).trans (h.others' l hl)

/-- **A call about the key is answered alike**, whatever happens to it. -/
theorem call (h : n.Twins k held held' n') {work : Store → StoreResult α} (hw : AboutKey k work)
    (m : Method) (forge : Bytes → α → α) :
    (Node.call m work forge n).1 = (Node.call m work forge n').1 ∧
      (Node.call m work forge n).2.Twins k held held' (Node.call m work forge n').2 := by
  have hanswer := (hw.same _ _ h.unlimited h.unlimited' h.entry).1
  have hafter := h.work hw
  have hweather : n'.weather n'.calls m = n.weather n.calls m := by rw [h.weather, h.calls]
  simp only [Node.call, hweather]
  cases (n.weather n.calls m).effect with
  | pass | breakOff keys e => exact ⟨by rw [hanswer], hafter⟩
  | forge b => exact ⟨by simp only [hanswer], hafter⟩
  | refuse e => exact ⟨rfl, h⟩
  | panic => exact ⟨rfl, h⟩
  | lose e => exact ⟨rfl, hafter⟩

/-- The same, with what becomes of the call. -/
theorem callNode (h : n.Twins k held held' n') {call : Node → Attempt α × Node}
    (hcall : (call n).1 = (call n').1 ∧ (call n).2.Twins k held held' (call n').2) (t : Terms)
    (slot : ℕ) :
    let r := ErasureVault.callNode t slot call n
    let r' := ErasureVault.callNode t slot call n'
    r.1 = r'.1 ∧ r.2.Twins k held held' r'.2 := by
  simp only [ErasureVault.callNode, hcall.1, true_and]
  split
  · exact hcall.2.tick
  · exact h.tick

theorem getSize (h : n.Twins (Text.utf8 key) held held' n') :
    (Node.getSize key n).1 = (Node.getSize key n').1 ∧
      (Node.getSize key n).2.Twins (Text.utf8 key) held held' (Node.getSize key n').2 := by
  obtain ⟨hanswer, hafter⟩ := h.call (aboutKey_storedRecord key) .getRecord fun b _ => b
  exact ⟨congrArg (Attempt.mapOutcome SizeRecord.decode) hanswer, hafter⟩

end Node.Twins

/-! ## Operations about one key -/

/-- Two clusters of one setting whose slots hold the same under a key, and are told apart by what
they hold under others. -/
abbrev Cluster.Twins (s : Setting) (key : String)
    (held held' : ℕ → Bytes → Option Bytes × Option Bytes) : Cluster → Cluster → Prop :=
  Cluster.Alike s fun i => Node.Twins (Text.utf8 key) (held i) (held' i)

namespace Op.Alike

variable {s : Setting} {held held' : ℕ → Bytes → Option Bytes × Option Bytes} {token : Token}

theorem callAll_twins {key label : String} {call : ℕ → Node → Attempt α × Node}
    (hcall : ∀ i n n', Node.Twins (Text.utf8 key) (held i) (held' i) n n' →
      (call i n).1 = (call i n').1 ∧
        Node.Twins (Text.utf8 key) (held i) (held' i) (call i n).2 (call i n').2) :
    Alike (Cluster.Twins s key held held') (Op.callAll label token call)
      (Op.callAll label token call) :=
  callAll fun t i n n' h => h.callNode (hcall i n n' h) t i

theorem agreedSize (id : Digest) :
    Alike (Cluster.Twins s id.key held held') (Cluster.agreedSize token id)
      (Cluster.agreedSize token id) := by
  unfold Cluster.agreedSize
  refine (checkToken token).bind fun _ => bind_cluster fun c c' hc => ?_
  have hread : c.thresholds.read = c'.thresholds.read :=
    congrArg Geometry.data (hc.geometry.trans hc.geometry'.symm)
  simp only [hread]
  by_cases hk : c'.thresholds.read < 2
  · simp only [hk, if_true]
    exact throw_bind _
  · simp only [hk, if_false]
    refine (callAll_twins fun i n n' h => h.getSize).bind fun records => ?_
    exact (isCanceled token).bind fun canceled => ofOutcome _

theorem collect (key : String) (size : ℕ) :
    Alike (Cluster.Twins s key held held') (Cluster.collect token key size none)
      (Cluster.collect token key size none) := by
  unfold Cluster.collect
  refine bind_cluster fun c c' hc => ?_
  have hg : c.geometry = c'.geometry := hc.geometry.trans hc.geometry'.symm
  have hslots : c.slots.length = c'.slots.length := by
    rw [hc.bound.length_eq, hc.bound'.length_eq, hg]
  simp only [hg, hslots, reduceCtorEq, if_false]
  by_cases h0 : c'.geometry.shardLength size = 0
  · simp only [h0, if_true]
    exact pure _
  · simp only [h0, if_false]
    refine (callAll_twins fun i n n' h =>
      h.call (aboutKey_storedShard key) .get fun b _ => b).bind fun shards => ?_
    exact (checkToken token).bind fun _ => pure _

theorem restore (key : String) (extent : Geometry.Extent) (size : ℕ) (stripe : Stripe) :
    Alike (Cluster.Twins s key held held') (Cluster.restore extent size stripe)
      (Cluster.restore extent size stripe) := by
  unfold Cluster.restore
  refine bind_cluster fun c c' hc => ?_
  have hg : c.geometry = c'.geometry := hc.geometry.trans hc.geometry'.symm
  have houtcome : (c.codec.rebuild extent stripe).1 = (c'.codec.rebuild extent stripe).1 :=
    congrArg (fun g => (g.rebuild extent stripe).1) hg
  have hrebuilt : (c.codec.rebuild extent stripe).2.1 = (c'.codec.rebuild extent stripe).2.1 :=
    congrArg (fun g => (g.rebuild extent stripe).2) hg
  simp only [hg, houtcome, hrebuilt]
  by_cases hfew : 0 < size ∧ stripe.countP Option.isSome < c'.geometry.data
  · simp only [hfew, and_self, if_true]
    exact throw_bind _
  · simp only [hfew, if_false]
    have hset : Alike (Cluster.Twins s key held held')
        (Op.setCodec (c.codec.rebuild extent stripe).2.2)
        (Op.setCodec (c'.codec.rebuild extent stripe).2.2) := setCodec hc.geometry hc.geometry'
    exact hset.bind fun _ => ofOutcome _

theorem size (id : Digest) :
    Alike (Cluster.Twins s id.key held held') (Cluster.size token id) (Cluster.size token id) :=
  (agreedSize id).timed_cluster

theorem get (id : Digest) :
    Alike (Cluster.Twins s id.key held held') (Cluster.get token id) (Cluster.get token id) := by
  unfold Cluster.get
  refine timed_cluster ?_
  refine (agreedSize id).bind fun size => (collect id.key size).bind fun stripe => ?_
  refine (restore id.key .data size stripe).bind fun stripe => bind_cluster fun c c' hc => ?_
  rw [hc.geometry, hc.geometry']
  exact ofOutcome _

theorem verify (id : Digest) :
    Alike (Cluster.Twins s id.key held held') (Cluster.verify token id)
      (Cluster.verify token id) := by
  unfold Cluster.verify
  refine timed_cluster ?_
  refine (agreedSize id).bind fun size => (collect id.key size).bind fun stripe => ?_
  by_cases h0 : size = 0
  · simp only [h0, if_true]
    exact pure _
  simp only [h0, if_false]
  cases (stripe.mapM fun shard => shard : Option (List Bytes)) with
  | none => exact pure _
  | some shards =>
    refine bind_cluster fun c c' hc => ?_
    have hg : c.geometry = c'.geometry := hc.geometry.trans hc.geometry'.symm
    have hconsistent : (c.codec.consistent shards).1 = (c'.codec.consistent shards).1 :=
      congrArg (fun g => g.consistent shards) hg
    simp only [hconsistent, hg]
    have hset : Alike (Cluster.Twins s id.key held held')
        (Op.setCodec (c.codec.consistent shards).2) (Op.setCodec (c'.codec.consistent shards).2) :=
      setCodec hc.geometry hc.geometry'
    exact hset.bind fun _ => pure _

theorem put (b : Block) :
    Alike (Cluster.Twins s b.id.key held held') (Cluster.put token b) (Cluster.put token b) := by
  unfold Cluster.put
  refine timed_cluster ?_
  refine (ofOutcome _).bind fun record => bind_cluster fun c c' hc => ?_
  have hg : c.geometry = c'.geometry := hc.geometry.trans hc.geometry'.symm
  have hshards : (c.codec.encode b.data).1 = (c'.codec.encode b.data).1 :=
    congrArg (fun g => g.encode b.data) hg
  have hpolicy : c.policy = c'.policy :=
    congrArg Setting.policy (hc.setting.trans hc.setting'.symm)
  have hwrite : c.thresholds.write = c'.thresholds.write :=
    congrArg (fun g => g.thresholds.write) hg
  simp only [hshards, hpolicy, hwrite]
  have hcodec (c : Cluster) : (c.codec.encode b.data).2.geometry = c.geometry := rfl
  have hset : Alike (Cluster.Twins s b.id.key held held') (Op.setCodec (c.codec.encode b.data).2)
      (Op.setCodec (c'.codec.encode b.data).2) :=
    setCodec ((hcodec c).trans hc.geometry) ((hcodec c').trans hc.geometry')
  refine hset.bind fun _ => Alike.bind (callAll_twins fun i n n' h => ?_) fun outcomes => ?_
  · exact h.call (aboutKey_put b.id.key _ _) .put fun _ a => a
  · exact (isCanceled token).bind fun canceled => ofOutcome _

theorem delete (id : Digest) :
    Alike (Cluster.Twins s id.key held held') (Cluster.delete token id)
      (Cluster.delete token id) := by
  unfold Cluster.delete
  refine timed_cluster ?_
  refine (callAll_twins fun i n n' h =>
    h.call (aboutKey_removeKey id.key) .delete fun _ a => a).bind fun outcomes => ?_
  exact (isCanceled token).bind fun canceled => ofOutcome _

end Op.Alike

/-! ## Actions -/

/-- What is done with a block. -/
inductive Action where
  | put (b : Block)
  | get (id : Digest)
  | size (id : Digest)
  | verify (id : Digest)
  | delete (id : Digest)

/-- What an action ends with. -/
inductive Answer where
  | done (o : Outcome Unit)
  | block (o : Outcome Block)
  | size (o : Outcome ℕ)
  | verified (o : Outcome Bool)
  deriving DecidableEq

namespace Action

/-- The block that the action is about. -/
def id : Action → Digest
  | put b => b.id
  | get id | size id | verify id | delete id => id

/-- What an action ends with, after how many milliseconds, and the cluster after it. -/
def run (token : Token) (c : Cluster) : Action → Answer × ℕ × Cluster
  | put b => ((Cluster.put token b).run c).map .done fun r => r
  | get id => ((Cluster.get token id).run c).map .block fun r => r
  | size id => ((Cluster.size token id).run c).map .size fun r => r
  | verify id => ((Cluster.verify token id).run c).map .verified fun r => r
  | delete id => ((Cluster.delete token id).run c).map .done fun r => r

/-- **An action ends alike on clusters with the same entries under its key**, and keeps them so. -/
theorem run_twins {s : Setting} {held held' : ℕ → Bytes → Option Bytes × Option Bytes}
    {c c' : Cluster} (a : Action) (token : Token) (h : Cluster.Twins s a.id.key held held' c c') :
    (a.run token c).1 = (a.run token c').1 ∧ (a.run token c).2.1 = (a.run token c').2.1 ∧
      Cluster.Twins s a.id.key held held' (a.run token c).2.2 (a.run token c').2.2 := by
  cases a with
  | put b =>
    obtain ⟨ho, hrest⟩ := (Op.Alike.put b).run h
    exact ⟨congrArg Answer.done ho, hrest⟩
  | get id =>
    obtain ⟨ho, hrest⟩ := (Op.Alike.get id).run h
    exact ⟨congrArg Answer.block ho, hrest⟩
  | size id =>
    obtain ⟨ho, hrest⟩ := (Op.Alike.size id).run h
    exact ⟨congrArg Answer.size ho, hrest⟩
  | verify id =>
    obtain ⟨ho, hrest⟩ := (Op.Alike.verify id).run h
    exact ⟨congrArg Answer.verified ho, hrest⟩
  | delete id =>
    obtain ⟨ho, hrest⟩ := (Op.Alike.delete id).run h
    exact ⟨congrArg Answer.done ho, hrest⟩

end Action

/-! ## Faults of one operation -/

namespace Cluster

/-- The cluster whose slots meet faults from now on: what happens to the calls of each slot, by the
number of calls before them. -/
def under (faults : ℕ → ℕ → Method → Disturbance) (c : Cluster) : Cluster :=
  { c with nodes := c.nodes.mapIdx fun number n =>
      { n with weather := faults ((c.slots.map Binding.node).idxOf number), calls := 0 } }

/-- What a slot holds under a key. -/
def entry (c : Cluster) (k : Bytes) (i : ℕ) : Option (Option Bytes × Option Bytes) :=
  (c.slotNode? i).map fun n => n.store.held k

/-- Slots over stores that have room for everything. -/
structure Unlimited (c : Cluster) : Prop where
  bound : c.Bound
  stores : ∀ i n, c.slotNode? i = some n → n.store.Unlimited

variable {c c' : Cluster} (faults : ℕ → ℕ → Method → Disturbance)

theorem Bound.slotNode?_under (hc : c.Bound) (i : ℕ) :
    (c.under faults).slotNode? i =
      (c.slotNode? i).map fun n => { n with weather := faults i, calls := 0 } := by
  rw [slotNode?, slotNode?, Option.map_map]
  refine Option.map_congr fun b hb => ?_
  have hlt := hc.node_lt b (List.mem_of_getElem? hb)
  have hindex : (c.slots.map Binding.node).idxOf b.node = i := by
    obtain ⟨hi, rfl⟩ := List.getElem?_eq_some_iff.1 hb
    have h := hc.nodup.idxOf_getElem i (by rwa [List.length_map])
    rwa [List.getElem_map] at h
  simp [under, node, List.getD_eq_getElem?_getD, hlt, hindex]

theorem Bound.under (hc : c.Bound) : (c.under faults).Bound where
  length_eq := hc.length_eq
  nodup := hc.nodup
  node_lt b hb := by
    rw [Cluster.under, List.length_mapIdx]
    exact hc.node_lt b hb

/-- What a slot holds, nothing if there is no such slot. -/
def heldBy (c : Cluster) (i : ℕ) (k : Bytes) : Option Bytes × Option Bytes :=
  (c.entry k i).getD (none, none)

theorem Unlimited.twins {key : String} (hc : c.Unlimited) (hc' : c'.Unlimited)
    (hs : c'.setting = c.setting) (hentry : c.entry (Text.utf8 key) = c'.entry (Text.utf8 key)) :
    Twins c.setting key c.heldBy c'.heldBy (c.under faults) (c'.under faults) where
  setting := rfl
  setting' := hs
  bound := hc.bound.under faults
  bound' := hc'.bound.under faults
  nodes i m m' hm hm' := by
    rw [hc.bound.slotNode?_under, Option.map_eq_some_iff] at hm
    rw [hc'.bound.slotNode?_under, Option.map_eq_some_iff] at hm'
    obtain ⟨n, hn, rfl⟩ := hm
    obtain ⟨n', hn', rfl⟩ := hm'
    have hsame := congrFun hentry i
    rw [entry, entry, hn, hn'] at hsame
    refine ⟨rfl, rfl, hc.stores i n hn, hc'.stores i n' hn', Option.some.inj hsame,
      fun l _ => ?_, fun l _ => ?_⟩
    · rw [heldBy, entry, hn]
      rfl
    · rw [heldBy, entry, hn']
      rfl

/-- Slots that hold the same under all other keys as those of `c`. -/
theorem Twins.entry_of_ne {key : String} {held' : ℕ → Bytes → Option Bytes × Option Bytes}
    {after after' : Cluster} (h : Twins c.setting key c.heldBy held' after after') (hc : c.Bound)
    {l : Bytes} (hl : l ≠ Text.utf8 key) : after.entry l = c.entry l := by
  funext i
  rcases h.slotNode?_cases i with ⟨hn, -⟩ | ⟨n, n', hn, -, htwins⟩
  · have hnone : c.slotNode? i = none := by
      rw [← Option.not_isSome_iff_eq_none, hc.isSome_slotNode?]
      rw [← Option.not_isSome_iff_eq_none, h.bound.isSome_slotNode?, h.geometry] at hn
      exact hn
    rw [entry, entry, hn, hnone]
  · have hi := h.bound.lt_total hn
    rw [h.geometry] at hi
    obtain ⟨m, hm⟩ := hc.exists_slotNode? hi
    have hheld := htwins.others l hl
    rw [heldBy, entry, hm] at hheld
    rw [entry, entry, hn, hm]
    exact congrArg some hheld

theorem Twins.entry_eq {s : Setting} {key : String}
    {held held' : ℕ → Bytes → Option Bytes × Option Bytes} (h : Twins s key held held' c c') :
    c.entry (Text.utf8 key) = c'.entry (Text.utf8 key) := by
  funext i
  rw [entry, entry]
  rcases h.slotNode?_cases i with ⟨hn, hn'⟩ | ⟨n, n', hn, hn', htwins⟩
  · rw [hn, hn']
  · rw [hn, hn']
    exact congrArg some htwins.entry

end Cluster

/-- An action with its caller, and with the faults that the slots meet meanwhile. -/
structure Operation where
  action : Action
  token : Token
  /-- What happens to the calls of each slot, by the number of calls before them. -/
  faults : ℕ → ℕ → Method → Disturbance

namespace Operation

/-- The key of the block that the operation is about. -/
def key (o : Operation) : Bytes :=
  Text.utf8 o.action.id.key

/-- What an operation ends with, and when, and the cluster after it. -/
def run (o : Operation) (c : Cluster) : (Answer × ℕ) × Cluster :=
  let (answer, elapsed, c) := o.action.run o.token (c.under o.faults)
  ((answer, elapsed), c)

theorem key_ne {o o' : Operation} (h : o.action.id ≠ o'.action.id) : o.key ≠ o'.key :=
  fun heq => h (Digest.key_injective (Text.utf8_injective heq))

variable {c c' : Cluster}

/-- What an operation leaves of a cluster: its setting, the room in its stores, and all entries but
those under its key. -/
theorem run_frame (o : Operation) (hc : c.Unlimited) :
    (o.run c).2.Unlimited ∧ (o.run c).2.setting = c.setting ∧
      ∀ l ≠ o.key, (o.run c).2.entry l = c.entry l := by
  obtain ⟨-, -, hafter⟩ := o.action.run_twins o.token (hc.twins o.faults hc rfl rfl)
  refine ⟨⟨hafter.bound, fun i n hn => ?_⟩, hafter.setting, fun l hl =>
    hafter.entry_of_ne hc.bound hl⟩
  exact (hafter.nodes i n n hn hn).unlimited

/-- **An operation depends on the entries under its key only**: its answer, when it is given, and
what the slots hold under the key afterwards. -/
theorem run_local (o : Operation) (hc : c.Unlimited) (hc' : c'.Unlimited)
    (hs : c'.setting = c.setting) (hentry : c.entry o.key = c'.entry o.key) :
    (o.run c).1 = (o.run c').1 ∧ (o.run c).2.entry o.key = (o.run c').2.entry o.key := by
  obtain ⟨hanswer, helapsed, hafter⟩ := o.action.run_twins o.token (hc.twins o.faults hc' hs hentry)
  exact ⟨Prod.ext hanswer helapsed, hafter.entry_eq⟩

/-- An operation on another block does not change what an operation does. -/
theorem run_after {o o' : Operation} (hc : c.Unlimited) (hne : o.key ≠ o'.key) :
    (o.run c).1 = (o.run (o'.run c).2).1 ∧
      (o.run c).2.entry o.key = (o.run (o'.run c).2).2.entry o.key := by
  obtain ⟨hunlimited, hsetting, hothers⟩ := o'.run_frame hc
  exact o.run_local hc hunlimited hsetting (hothers o.key hne).symm

/-- **Operations on different blocks do not meet.** In either order they give the same answers, at
the same times, and leave the same entries in every slot; and what an operation answers depends on
nothing but the entries under the key of its block. -/
theorem operations_separate (hc : c.Unlimited) (o : Operation) :
    (∀ o' : Operation, o'.action.id ≠ o.action.id →
      let first := o.run c
      let second := o'.run first.2
      let first' := o'.run c
      let second' := o.run first'.2
      first.1 = second'.1 ∧ second.1 = first'.1 ∧
        ∀ k i, second.2.entry k i = second'.2.entry k i) ∧
    ∀ c' : Cluster, c'.Unlimited → c'.setting = c.setting →
      (∀ i, c.entry o.key i = c'.entry o.key i) → (o.run c).1 = (o.run c').1 := by
  refine ⟨fun o' hne => ?_, fun c' hc' hs hentry => (o.run_local hc hc' hs (funext hentry)).1⟩
  intro first second first' second'
  have hkey := key_ne hne
  obtain ⟨hc₁, -, hothers₁⟩ := o.run_frame hc
  obtain ⟨hc₂, -, hothers₂⟩ := o'.run_frame hc
  obtain ⟨-, -, hothers₁₂⟩ := o'.run_frame hc₁
  obtain ⟨-, -, hothers₂₁⟩ := o.run_frame hc₂
  obtain ⟨hanswer, hentry⟩ := run_after hc hkey.symm
  obtain ⟨hanswer', hentry'⟩ := run_after hc hkey
  refine ⟨hanswer, hanswer'.symm, fun k i => congrFun ?_ i⟩
  by_cases hk : k = o.key
  · rw [hk]
    exact (hothers₁₂ o.key hkey.symm).trans hentry
  by_cases hk' : k = o'.key
  · rw [hk']
    exact hentry'.symm.trans (hothers₂₁ o'.key hkey).symm
  calc second.2.entry k
      = first.2.entry k := hothers₁₂ k hk'
    _ = c.entry k := hothers₁ k hk
    _ = first'.2.entry k := (hothers₂ k hk').symm
    _ = second'.2.entry k := (hothers₂₁ k hk).symm

/-- Writing three bytes under one hash function, to three slots of which the last refuses, and
removing what has the same three bytes under another do not meet; and it is all one to the write
whether the slots hold the latter. -/
theorem separate_in_threeSlots :
    let write : Operation := ⟨.put ⟨.blake3, [1, 2, 3]⟩, .never,
      fun i _ _ => ⟨i, if i = 2 then .refuse (.transport "") else .pass⟩⟩
    let removal : Operation :=
      ⟨.delete (Block.id ⟨.sha256, [1, 2, 3]⟩), .after 5, fun _ _ _ => .calm⟩
    Cluster.threeSlots.Unlimited ∧ removal.action.id ≠ write.action.id ∧
      (write.run Cluster.threeSlots).1 =
        (write.run (removal.run Cluster.threeSlots).2).1 ∧
      (write.run Cluster.threeSlots).1 =
        (write.run (Cluster.threeSlotsLater removal.action.id.key)).1 := by
  intro write removal
  have hne : removal.action.id ≠ write.action.id := fun h =>
    Algorithm.noConfusion (congrArg Digest.algorithm h)
  have hunlimited {c : Cluster} (hc : c.Bound) (hnodes : ∀ n ∈ c.nodes, n.store.Unlimited) :
      c.Unlimited :=
    ⟨hc, fun i n hn => hnodes n (hc.mem_nodes hn)⟩
  have hempty : Cluster.threeSlots.Unlimited := by
    refine hunlimited ⟨rfl, by decide, by decide⟩ ?_
    simp [Cluster.threeSlots, Node.ofStore, Store.Unlimited, MemoryStore.empty, Meter.fresh]
  have hfull : (Cluster.threeSlotsLater removal.action.id.key).Unlimited := by
    refine hunlimited ⟨rfl, by decide, by decide⟩ ?_
    simp [Cluster.threeSlotsLater, Cluster.holding, Node.ofStore, Store.Unlimited, Meter.fresh]
  obtain ⟨hcommute, hlocal⟩ := operations_separate hempty write
  refine ⟨hempty, hne, (hcommute removal hne).1, hlocal _ hfull rfl fun i => ?_⟩
  have hnothing (record shard : Bytes) :
      (Cluster.holding removal.action.id.key record shard).store.held write.key = (none, none) :=
    Cluster.held_holding_of_ne (key_ne hne).symm
  obtain _ | _ | _ | i := i
  · exact congrArg some (hnothing ..).symm
  · exact congrArg some (hnothing ..).symm
  · exact congrArg some (hnothing ..).symm
  · rfl

end Operation

end ErasureVault
