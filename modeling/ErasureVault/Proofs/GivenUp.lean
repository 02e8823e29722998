/-
  Callers who have given up.

  * `Cluster.Untouched c c'`: the same slots over the same stores, counters of reads included;
  * a call that its caller has given up never reaches its node (`callSlots_canceled`), and nothing
    is decided for such a caller. `Op.Refused c x`: begun on a cluster like `c`, the operation `x`
    ends with the cancellation, and leaves the cluster untouched. So do all operations, whatever the
    slots would have answered and however few of them a decision takes (`given_up`).
-/
import ErasureVault.Cluster.Repair
import ErasureVault.Cluster.Write
import ErasureVault.Proofs.Answers

namespace ErasureVault

variable {α β : Type}

/-! ## Calls that reach no node -/

section
variable {t : Terms} (ht : t.token = .canceled)
include ht

theorem callNode_canceled (slot : ℕ) (call : Node → Attempt α × Node) (n : Node) :
    (callNode t slot call n).2 = n.tick :=
  (callNode_of_stopped (t.cutOff_of_canceled (by rw [ht, Token.isCanceled_canceled]) slot _)).2

/-- **No store is reached by a caller who has given up.** -/
theorem callSlots_canceled (call : ℕ → Node → Attempt α × Node) (slot : ℕ) (numbers : List ℕ)
    (nodes : List Node) :
    (callSlots t call slot numbers nodes).2.map Node.store = nodes.map Node.store := by
  induction numbers generalizing slot nodes with
  | nil => rfl
  | cons number numbers ih =>
    simp only [callSlots]
    rw [ih, callNode_canceled ht, List.map_set]
    by_cases hlt : number < (nodes.map Node.store).length
    · have hsame : (nodes.getD number default).tick.store = (nodes.map Node.store)[number] := by
        rw [List.length_map] at hlt
        simp [Node.tick, List.getD_eq_getElem?_getD, hlt]
      rw [hsame, List.set_getElem_self]
    · exact List.set_eq_of_length_le (Nat.not_lt.1 hlt)

end

namespace Cluster

/-- The same slots over the same stores. -/
structure Untouched (c c' : Cluster) : Prop where
  slots : c'.slots = c.slots
  stores : c'.nodes.map Node.store = c.nodes.map Node.store

theorem Untouched.refl (c : Cluster) : c.Untouched c :=
  ⟨rfl, rfl⟩

/-- A node that is called without waiting keeps its store. -/
theorem Untouched.tick (c : Cluster) (number : ℕ) :
    c.Untouched (c.modifyNode number Node.tick) := by
  refine ⟨rfl, List.ext_getElem? fun i => ?_⟩
  rw [List.getElem?_map, List.getElem?_map, modifyNode, List.getElem?_modify]
  cases c.nodes[i]? with
  | none => rfl
  | some n => by_cases hi : number = i <;> simp [hi, Node.tick]

/-- On the cluster `c` the operation ends with the cancellation, and touches nothing. -/
def Refuses (c : Cluster) (x : Op α) : Prop :=
  (x.run c).1 = .error .canceledByCaller ∧ c.Untouched (x.run c).2.2

end Cluster

namespace Op

/-- The operation ends with the cancellation, and leaves a cluster like `c` untouched. -/
abbrev Refused (c : Cluster) (x : Op α) : Prop :=
  Triple c.Untouched x (fun _ _ => False) fun e c' => e = .canceledByCaller ∧ c.Untouched c'

variable {c : Cluster} {x : Op α} {f : α → Op β}

namespace Triple

variable {P : Cluster → Prop} {E : Failure → Cluster → Prop}

theorem isCanceled_canceled :
    Triple P (Op.isCanceled .canceled) (fun b c => b = true ∧ P c) E :=
  fun p hp => ⟨Token.isCanceled_canceled p.now, hp⟩

theorem callAll_canceled (label : String) (call : ℕ → Node → Attempt α × Node) :
    Triple c.Untouched (Op.callAll label .canceled call) (fun _ => c.Untouched) E :=
  fun _ hp => ⟨hp.slots, (callSlots_canceled rfl call 0 _ _).trans hp.stores⟩

end Triple

namespace Refused

/-! ## Steps -/

/-- What comes after a refused operation is not done. -/
theorem bind (h : Refused c x) : Refused c (x >>= f) :=
  Triple.bind h fun _ _ hp => hp.elim

theorem timed {name : String} (h : Refused c x) : Refused c (Op.timed name x) :=
  Triple.timed h (fun _ _ _ hq => hq) fun _ _ _ he => ⟨he.1, he.2.slots, he.2.stores⟩

theorem checkToken : Refused c (Op.checkToken .canceled) :=
  Triple.isCanceled_canceled.bind fun b => by
    cases b with
    | false => exact Triple.pure fun _ hc => absurd hc.1 Bool.false_ne_true
    | true => exact Triple.throw fun _ hc => ⟨rfl, hc.2⟩

/-- A decision that is made after all slots were called is not made. -/
theorem decide {label : String} {call : ℕ → Node → Attempt α × Node}
    {conclude : Bool → List (Outcome α) → Outcome β}
    (h : ∀ answers, conclude true answers = .error .canceledByCaller) :
    Refused c (do
      let answers ← Op.callAll label .canceled call
      Op.ofOutcome (conclude (← Op.isCanceled .canceled) answers)) := by
  refine (Triple.callAll_canceled label call).bind fun answers => ?_
  refine Triple.isCanceled_canceled.bind fun canceled => ?_
  refine Triple.ofOutcome (fun b c' hc ho => ?_) fun e c' hc ho => ?_
  · rw [hc.1, h] at ho
    simp at ho
  · rw [hc.1, h] at ho
    exact ⟨(Except.error.inj ho).symm, hc.2⟩

theorem agreedSize (id : Digest) : Refused c (Cluster.agreedSize .canceled id) :=
  checkToken.bind

/-! ## Operations -/

theorem size (id : Digest) : Refused c (Cluster.size .canceled id) :=
  (agreedSize id).timed

theorem get (id : Digest) : Refused c (Cluster.get .canceled id) :=
  (agreedSize id).bind.timed

theorem verify (id : Digest) : Refused c (Cluster.verify .canceled id) :=
  (agreedSize id).bind.timed

theorem put {b : Block} (hb : b.Fits) : Refused c (Cluster.put .canceled b) := by
  unfold Cluster.put Cluster.putBy
  refine Refused.timed ?_
  rw [hb.ofSize]
  refine Triple.bind (Q := fun _ => c.Untouched) (Triple.ofOutcome (fun _ _ hc _ => hc)
    fun _ _ _ h => by simp at h) fun record => ?_
  refine Triple.cluster.bind fun c₀ => ?_
  refine Triple.bind (Q := fun _ => c.Untouched)
    (Triple.modifyCluster fun c' hc => ⟨hc.2.slots, hc.2.stores⟩) fun _ => ?_
  exact decide fun answers => rfl

theorem delete (id : Digest) : Refused c (Cluster.delete .canceled id) :=
  (decide fun _ => rfl).timed

theorem repairKeys (slot : ℕ) {items : List (Except Failure String)} (hitems : items ≠ [])
    (report : RepairReport) : Refused c (Cluster.repairKeys .canceled slot items report) := by
  cases items with
  | nil => exact absurd rfl hitems
  | cons item items => exact checkToken.bind

/-- A repair that finds a key is refused before it looks at it. -/
theorem repair {source slot : ℕ} {n : Node} (hn : c.slotNode? source = some n) (hscan : n.scan ≠ [])
    (hslot : slot < c.slots.length) :
    Triple (· = c) (Cluster.repair .canceled source slot) (fun _ _ => False)
      fun e c' => e = .canceledByCaller ∧ c.Untouched c' := by
  obtain ⟨b, hb, rfl⟩ := Cluster.slotNode?_eq_some_iff.1 hn
  have hsource : source < c.slots.length := (List.getElem?_eq_some_iff.1 hb).1
  unfold Cluster.repair Cluster.repairBy Lookups.plain
  refine Triple.timed ?_ (fun _ _ _ h => h) fun _ _ _ h => ⟨h.1, h.2.slots, h.2.stores⟩
  refine Triple.cluster.bind fun c₀ => Triple.of_each ?_
  rintro _ ⟨rfl, rfl⟩
  simp only [Nat.not_le.2 hsource, Nat.not_le.2 hslot, if_false]
  refine Triple.bind (Q := fun items c' => items ≠ [] ∧ c₀.Untouched c') ?_ fun items =>
    Triple.of_each fun c' hc' => (repairKeys slot hc'.1 .empty).each hc'.2
  unfold Cluster.scanSlot
  refine Triple.cluster.bind fun c₁ => Triple.of_each ?_
  rintro _ ⟨rfl, rfl⟩
  simp only [hb]
  refine Triple.bind (Q := fun _ => c₁.Untouched) (Triple.modifyCluster fun c' hc => ?_)
    fun _ => Triple.pure fun _ hc => ⟨hscan, hc⟩
  exact hc ▸ .tick c₁ b.node

end Refused

/-- What is told of a cluster by a rule holds of the run on it. -/
theorem Triple.refuses (h : Triple (· = c) x (fun _ _ => False)
    fun e c' => e = .canceledByCaller ∧ c.Untouched c') : c.Refuses x := by
  rw [Cluster.Refuses]
  cases ho : (x.run c).1 with
  | ok a => exact (h.run_ok rfl ho).elim
  | error e =>
    obtain ⟨rfl, hc⟩ := h.run_error rfl ho
    exact ⟨rfl, hc⟩

theorem Refused.refuses (h : Refused c x) : c.Refuses x :=
  Triple.refuses (Triple.each h (.refl c))

end Op

/-- Only a caller who gives up at once has given up when an operation begins. -/
theorem Token.eq_canceled {token : Token} (h : token.isCanceled 0) : token = .canceled := by
  cases token with
  | never => simp at h
  | after ms =>
    rw [isCanceled, decide_eq_true_eq] at h
    rw [Nat.le_zero.1 h, canceled]

namespace Cluster

/-- **A caller who has given up changes nothing, and is told so.** Every operation ends with the
cancellation and with nothing else, whatever the slots would have answered, under either policy and
for any number of data shards; no store is reached, and no slot is bound to another node. A repair
is refused if there is a key to look at, and a write if the block has a record. -/
theorem given_up (c : Cluster) {token : Token} (h : token.isCanceled 0) :
    (∀ b : Block, b.size ≤ SizeRecord.maxSize → c.Refuses (Cluster.put token b)) ∧
    (∀ id, c.Refuses (Cluster.size token id)) ∧
    (∀ id, c.Refuses (Cluster.get token id)) ∧
    (∀ id, c.Refuses (Cluster.verify token id)) ∧
    (∀ id, c.Refuses (Cluster.delete token id)) ∧
    ∀ source slot n, c.slotNode? source = some n → n.scan ≠ [] → slot < c.slots.length →
      c.Refuses (Cluster.repair token source slot) := by
  obtain rfl := Token.eq_canceled h
  refine ⟨fun b hb => ?_, fun id => ?_, fun id => ?_, fun id => ?_, fun id => ?_,
    fun source slot n hn hscan hslot => ?_⟩
  · exact (Op.Refused.put (show b.Fits from hb)).refuses
  · exact (Op.Refused.size id).refuses
  · exact (Op.Refused.get id).refuses
  · exact (Op.Refused.verify id).refuses
  · exact (Op.Refused.delete id).refuses
  · exact (Op.Refused.repair hn hscan hslot).refuses

/-- Two slots with one data shard; the first holds a key, and the second breaks down when called. -/
def brittlePair : Cluster where
  codec := .ofGeometry ⟨1, 1, Nat.one_pos, Nat.one_pos, by decide⟩ 0
  policy := .bestEffort
  limit := some 5
  slots := [⟨"a", 0⟩, ⟨"b", 1⟩]
  nodes := [.ofStore "a" (.memory ⟨Table.empty.insert [107] ⟨[], []⟩, .fresh 0 0⟩),
    ⟨"b", .memory (.empty 0), fun _ _ => ⟨9, .panic⟩, 0⟩]
  journal := []

/-- Neither a write nor a repair is begun on them. -/
theorem given_up_brittlePair :
    brittlePair.Refuses (Cluster.put .canceled ⟨.sha256, [1, 2, 3]⟩) ∧
      brittlePair.Refuses (Cluster.repair .canceled 0 1) := by
  obtain ⟨hput, -, -, -, -, hrepair⟩ := given_up brittlePair (Token.isCanceled_canceled 0)
  exact ⟨hput _ (by decide), hrepair 0 1 _ rfl (by decide +kernel) (by decide)⟩

end Cluster

end ErasureVault
