/-
  Removing a block.

  * `Outcome.failure?` is what counts as a failure to remove a key, and `reported` the list of the
    slots that failed, in ascending order; a removal succeeds if it is empty, and reports it
    otherwise (`delete_each`);
  * `Cluster.Removing id failing c`: asked to remove the block, each slot fails as `failing` says
    and is left as it was, or removes the key. `Node.Healthy`: the store works, and every call from
    now on goes through; it stays so when the key is removed (`Healthy.removed`);
  * the slots that fail are reported and unchanged, the others no longer hold the key, and once all
    slots are healthy a removal succeeds, and again, and the block is unknown (`delete_exact`).
-/
import ErasureVault.Cluster.Write
import ErasureVault.Proofs.Acknowledged
import ErasureVault.Proofs.Slotwise

namespace ErasureVault

open Function

/-! ## Reports -/

/-- The failure to remove a key, for which it does not matter whether the key was there. -/
def Outcome.failure? {α : Type} : Outcome α → Option Failure
  | .ok _ => none
  | .error e => if e.isMissing then none else some e

/-- The slots that fail, in ascending order, each with its failure. -/
def reported (total : ℕ) (failing : ℕ → Option Failure) : List (ℕ × Failure) :=
  (List.range total).filterMap fun i => (failing i).map fun e => (i, e)

theorem reported_eq_nil_iff {total : ℕ} {failing : ℕ → Option Failure} :
    reported total failing = [] ↔ ∀ i < total, failing i = none := by
  simp [reported, List.filterMap_eq_nil_iff]

/-- What is told of the answers, each with its number, is told of the numbers. -/
theorem filterMap_zipIdx {α β : Type} {answers : List α} {f : α × ℕ → Option β} {g : ℕ → Option β}
    {k : ℕ} (h : ∀ i a, answers[i]? = some a → f (a, k + i) = g (k + i)) :
    (answers.zipIdx k).filterMap f = (List.range' k answers.length).filterMap g := by
  induction answers generalizing k with
  | nil => rfl
  | cons a answers ih =>
    have hhead : f (a, k) = g k := h 0 a rfl
    have htail := ih (k := k + 1) fun i b hb => by
      rw [Nat.add_assoc, Nat.add_comm 1 i]
      exact h (i + 1) b hb
    rw [List.zipIdx_cons, List.length_cons, List.range'_succ, List.filterMap_cons,
      List.filterMap_cons, hhead, htail]

theorem deleteFailures_eq {answers : List (Outcome Unit)} {failing : ℕ → Option Failure}
    (h : ∀ i a, answers[i]? = some a → a.failure? = failing i) :
    deleteFailures answers = reported answers.length failing := by
  rw [deleteFailures, reported, List.range_eq_range']
  refine filterMap_zipIdx fun i a ha => ?_
  rw [Nat.zero_add, ← h i a ha]
  cases a with
  | ok u => rfl
  | error e =>
    simp only [Outcome.failure?]
    split <;> rfl

/-- **A removal reports the slots that failed**, and succeeds if there are none. -/
theorem concludeDelete_eq {answers : List (Outcome Unit)} {failing : ℕ → Option Failure}
    (h : ∀ i a, answers[i]? = some a → a.failure? = failing i) :
    concludeDelete false answers =
      if reported answers.length failing = [] then .ok ()
      else .error (.slotsFailed answers.length (reported answers.length failing)) := by
  rw [concludeDelete, deleteFailures_eq h]
  simp only [Bool.false_eq_true, if_false]
  cases reported answers.length failing <;> rfl

namespace Op.Triple

open Cluster

variable {l : Layout} {I J : ℕ → Node → Prop}

/-- What a removal ends with, and leaves behind. -/
theorem delete_each {id : Digest} {failing : ℕ → Option Failure}
    (hcall : ∀ i n, i < l.geometry.total → I i n →
      let s := callNode ⟨"delete", .never, l.limit, 0⟩ i (Node.delete id.key) n
      J i s.2 ∧ s.1.outcome.failure? = failing i) :
    Triple (Each l I) (Cluster.delete .never id)
      (fun _ c => reported l.geometry.total failing = [] ∧ c.Each l J)
      (fun e c => (reported l.geometry.total failing ≠ [] ∧
        e = .slotsFailed l.geometry.total (reported l.geometry.total failing)) ∧ c.Each l J) := by
  unfold Cluster.delete
  refine timed ?_ (fun _ _ j h => ⟨h.1, h.2.journal j⟩) fun _ _ j h => ⟨h.1, h.2.journal j⟩
  refine bind (callAll_each_apart (R := fun i a => a.failure? = failing i)
    fun _ i n hi hn => hcall i n hi hn) fun answers => ?_
  refine (isCanceled .never).bind fun canceled => of_each ?_
  rintro c ⟨hcanceled, ⟨hlen, hanswers⟩, hc⟩
  rw [hcanceled rfl, concludeDelete_eq hanswers, hlen]
  refine ofOutcome ?_ ?_
  · rintro u _ rfl h
    split at h
    · exact ⟨‹_›, hc⟩
    · simp at h
  · rintro e _ rfl h
    split at h
    · simp at h
    · exact ⟨⟨‹_›, (Except.error.inj h).symm⟩, hc⟩

end Op.Triple

/-- What a removal ends with, and the cluster after it. -/
theorem Cluster.Each.delete {l : Layout} {I J : ℕ → Node → Prop} {c : Cluster} (hc : c.Each l I)
    (id : Digest) (failing : ℕ → Option Failure)
    (hcall : ∀ i n, i < l.geometry.total → I i n →
      let s := callNode ⟨"delete", .never, l.limit, 0⟩ i (Node.delete id.key) n
      J i s.2 ∧ s.1.outcome.failure? = failing i) :
    let run := (Cluster.delete .never id).run c
    ((∀ i < l.geometry.total, failing i = none) → run.1 = .ok ()) ∧
      ((∃ i < l.geometry.total, failing i ≠ none) →
        run.1 = .error (.slotsFailed l.geometry.total (reported l.geometry.total failing))) ∧
      run.2.2.Each l J := by
  intro run
  have hdelete := Op.Triple.delete_each (J := J) hcall
  cases ho : run.1 with
  | ok u =>
    obtain ⟨hnil, hafter⟩ := hdelete.run_ok hc ho
    refine ⟨fun _ => rfl, fun ⟨i, hi, hne⟩ => ?_, hafter⟩
    exact absurd (reported_eq_nil_iff.1 hnil i hi) hne
  | error e =>
    obtain ⟨⟨hne, he⟩, hafter⟩ := hdelete.run_error hc ho
    exact ⟨fun hnone => absurd (reported_eq_nil_iff.2 hnone) hne, fun _ => he ▸ rfl, hafter⟩

/-! ## Slots that answer -/

namespace Node

theorem removeKey_works {s : Store} (hs : s ≠ .offline) (key : String) :
    (removeKey key s).2 ≠ .offline ∧
      ((removeKey key s).1 = .ok () ∨ (removeKey key s).1 = .error (.keyUnknown key)) := by
  have hdelete : ∃ b s', s.delete key = (.ok b, s') ∧ s' ≠ .offline := by
    cases s with
    | memory m => exact ⟨_, _, rfl, by simp⟩
    | tables t => exact ⟨_, _, rfl, by simp⟩
    | offline => exact absurd rfl hs
  obtain ⟨b, s', hb, hs'⟩ := hdelete
  rw [removeKey, hb]
  cases b with
  | true => exact ⟨hs', Or.inl rfl⟩
  | false => exact ⟨hs', Or.inr rfl⟩

/-- The store works, and every call from now on goes through. -/
structure Healthy (limit : Option ℕ) (n : Node) : Prop where
  works : n.store ≠ .offline
  passes : ∀ t ≥ n.calls, ∀ m, (n.weather t m).Passes limit

variable {limit : Option ℕ} {n : Node} {i : ℕ} {key : String}

/-- **A slot that is reached removes the key**, and does not fail if there was none. -/
theorem delete_of_passes (i : ℕ) (key : String) (hs : n.store ≠ .offline)
    (h : (n.weather n.calls .delete).Passes limit) :
    let s := callNode ⟨"delete", .never, limit, 0⟩ i (Node.delete key) n
    s.1.outcome.failure? = none ∧
      s.2.store.held = update n.store.held (Text.utf8 key) (none, none) ∧
      s.2.store ≠ .offline := by
  intro s
  obtain ⟨ho, hn⟩ :
      s.1.outcome = (removeKey key n.store).1 ∧
        s.2 = Node.tick { n with store := (removeKey key n.store).2 } := callNode_of_passes h
  obtain ⟨hworks, hanswer⟩ := removeKey_works hs key
  refine ⟨?_, ?_, ?_⟩
  · rw [ho]
    rcases hanswer with hr | hr <;> rw [hr] <;> rfl
  · rw [hn]
    exact held_removeKey key n.store
  · rw [hn]
    exact hworks

/-- A slot that is healthy stays so when the key is removed. -/
theorem Healthy.removed (h : n.Healthy limit) (i : ℕ) (key : String) :
    let s := callNode ⟨"delete", .never, limit, 0⟩ i (Node.delete key) n
    s.1.outcome.failure? = none ∧
      s.2.store.held = update n.store.held (Text.utf8 key) (none, none) ∧ s.2.Healthy limit := by
  intro s
  obtain ⟨ho, hheld, hworks⟩ := delete_of_passes i key h.works
    (h.passes n.calls (Nat.le_refl _) .delete)
  obtain ⟨hweather, hcalls, -⟩ := callNode_frame ⟨"delete", .never, limit, 0⟩ i .delete
    (removeKey key) (fun _ a => a) n
  refine ⟨ho, hheld, hworks, fun t ht m => ?_⟩
  rw [show s.2.weather = _ from hweather]
  rw [show s.2.calls = _ from hcalls] at ht
  exact h.passes t (by omega) m

/-- A slot that is healthy says that it does not hold the key. -/
theorem Healthy.unknown (h : n.Healthy limit) (hheld : (n.store.held (Text.utf8 key)).1 = none) :
    (callNode ⟨"get_meta", .never, limit, 0⟩ i (Node.getRecord key) n).1.outcome =
      .error (.keyUnknown key) := by
  refine (callNode_of_passes (h.passes n.calls (Nat.le_refl _) .getRecord)).1.trans ?_
  cases hs : n.store with
  | memory m =>
    rw [hs] at hheld
    exact (found_of_ok rfl).trans (congrArg (absent key) hheld)
  | tables t =>
    rw [hs] at hheld
    exact (found_of_ok rfl).trans (congrArg (absent key) hheld)
  | offline => exact absurd hs h.works

end Node

namespace Cluster

variable {c : Cluster} {id : Digest} {failing : ℕ → Option Failure}

/-- Asked to remove the block, the slots fail as `failing` says, with failures that do not say that
the key is not there, and are left as they were; the others work, and are reached. -/
structure Removing (id : Digest) (failing : ℕ → Option Failure) (c : Cluster) : Prop where
  bound : c.Bound
  fails : ∀ i n e, c.slotNode? i = some n → failing i = some e →
    let s := callNode ⟨"delete", .never, c.limit, 0⟩ i (Node.delete id.key) n
    s.1.outcome = .error e ∧ ¬ e.isMissing ∧ s.2.store = n.store
  passes : ∀ i n, c.slotNode? i = some n → failing i = none →
    n.store ≠ .offline ∧ (n.weather n.calls .delete).Passes c.limit

/-- All slots work, and are reached from now on. -/
structure Healthy (c : Cluster) : Prop where
  bound : c.Bound
  nodes : ∀ i n, c.slotNode? i = some n → n.Healthy c.limit

/-- What a removal leaves of the node of a slot. -/
def Removed (id : Digest) (fails : Prop) (n n' : Node) : Prop :=
  (fails → n'.store = n.store) ∧
    (¬ fails → n'.store.held = update n.store.held (Text.utf8 id.key) (none, none))

theorem Removing.delete (h : c.Removing id failing) :
    let run := (Cluster.delete .never id).run c
    ((∀ i < c.geometry.total, failing i = none) → run.1 = .ok ()) ∧
      ((∃ i < c.geometry.total, failing i ≠ none) →
        run.1 = .error (.slotsFailed c.geometry.total (reported c.geometry.total failing))) ∧
      run.2.2.Each c.layout fun i n' =>
        ∃ n, c.slotNode? i = some n ∧ Removed id (failing i ≠ none) n n' := by
  refine h.bound.each_self.delete id failing fun i n _ hn => ?_
  cases hf : failing i with
  | some e =>
    obtain ⟨ho, he, hs⟩ := h.fails i n e hn hf
    refine ⟨⟨n, hn, fun _ => hs, fun hnot => absurd (Option.some_ne_none e) hnot⟩, ?_⟩
    exact (congrArg Outcome.failure? ho).trans (if_neg he)
  | none =>
    obtain ⟨hworks, hpasses⟩ := h.passes i n hn hf
    obtain ⟨ho, hheld, -⟩ := Node.delete_of_passes i id.key hworks hpasses
    exact ⟨⟨n, hn, fun hne => absurd rfl hne, fun _ => hheld⟩, ho⟩

/-- **All slots of a healthy cluster remove the block**, and stay healthy. -/
theorem Healthy.delete (h : c.Healthy) (id : Digest) :
    let run := (Cluster.delete .never id).run c
    run.1 = .ok () ∧ run.2.2.geometry = c.geometry ∧ run.2.2.Healthy ∧
      ∀ i n, run.2.2.slotNode? i = some n → n.store.held (Text.utf8 id.key) = (none, none) := by
  intro run
  have hbegin : c.Each c.layout fun _ n => n.Healthy c.limit := ⟨rfl, h.bound, h.nodes⟩
  obtain ⟨hok, -, hafter⟩ := hbegin.delete
    (J := fun _ n => n.Healthy c.limit ∧ n.store.held (Text.utf8 id.key) = (none, none))
    id (fun _ => none) fun i n _ hn => by
      obtain ⟨ho, hheld, hhealthy⟩ := hn.removed i id.key
      exact ⟨⟨hhealthy, (congrFun hheld _).trans (update_self ..)⟩, ho⟩
  refine ⟨hok fun _ _ => rfl, hafter.geometry, ⟨hafter.bound, fun i n hn => ?_⟩, fun i n hn => ?_⟩
  · rw [hafter.limit]
    exact (hafter.nodes i n hn).1
  · exact (hafter.nodes i n hn).2

/-- **A block that no slot holds is unknown.** -/
theorem Healthy.unknown (h : c.Healthy) (hk : 2 ≤ c.geometry.data)
    (hheld : ∀ i n, c.slotNode? i = some n → n.store.held (Text.utf8 id.key) = (none, none)) :
    c.sizeOf id = .error (.blockUnknown id.key) := by
  have hrecords : ∀ r ∈ c.records id, r = .error (.keyUnknown id.key) := by
    intro r hr
    obtain ⟨i, hi⟩ := List.getElem?_of_mem hr
    rw [h.bound.getElem?_records, Option.map_eq_some_iff] at hi
    obtain ⟨n, hn, rfl⟩ := hi
    rw [(h.nodes i n hn).unknown (congrArg Prod.fst (hheld i n hn))]
    rfl
  have hnone {p : Outcome SizeRecord → Bool} (hp : p (.error (.keyUnknown id.key)) = false) :
      (c.records id).countP p = 0 :=
    List.countP_eq_zero.2 fun r hr => by rw [hrecords r hr, hp]; simp
  have hall : (c.records id).countP Outcome.isMissing = c.geometry.total := by
    have hlength : (c.records id).length = c.geometry.total := h.bound.length_records
    rw [← hlength, List.countP_eq_length]
    exact fun r hr => by rw [hrecords r hr]; rfl
  have hle : c.geometry.data ≤ c.geometry.total := Nat.le_of_lt c.geometry.data_lt_total
  rw [sizeOf, if_neg (by omega), concludeSize_of_few, unavailable, hall, if_pos hle]
  · rw [hnone rfl]
    omega
  · rw [hnone rfl]
    omega

/-- **A removal is exact, can be repeated and is final.** The slots that fail are reported, each
with its failure, and left as they were; all others no longer hold the key, and nothing else
changes. Once all slots are healthy, whatever they hold by then, the removal succeeds and does so
again, and the block is unknown. -/
theorem delete_exact (h : c.Removing id failing) :
    let first := (Cluster.delete .never id).run c
    ((∀ i < c.geometry.total, failing i = none) → first.1 = .ok ()) ∧
    ((∃ i < c.geometry.total, failing i ≠ none) →
      first.1 = .error (.slotsFailed c.geometry.total (reported c.geometry.total failing))) ∧
    (∀ i n, c.slotNode? i = some n →
      ∃ n', first.2.2.slotNode? i = some n' ∧ Removed id (failing i ≠ none) n n') ∧
    ∀ c₁ : Cluster, c₁.Healthy →
      let retry := (Cluster.delete .never id).run c₁
      let again := (Cluster.delete .never id).run retry.2.2
      retry.1 = .ok () ∧ again.1 = .ok () ∧ (2 ≤ c₁.geometry.data →
        ((Cluster.size .never id).run again.2.2).1 = .error (.blockUnknown id.key) ∧
        ((Cluster.get .never id).run again.2.2).1 = .error (.blockUnknown id.key)) := by
  intro first
  obtain ⟨hok, herror, hafter⟩ := h.delete
  refine ⟨hok, herror, fun i n hn => ?_, fun c₁ h₁ => ?_⟩
  · obtain ⟨n', hn', n₀, hn₀, hremoved⟩ := hafter.exists_node (h.bound.lt_total hn)
    obtain rfl : n = n₀ := Option.some.inj (hn.symm.trans hn₀)
    exact ⟨n', hn', hremoved⟩
  · obtain ⟨hretry, hg, h₂, -⟩ := h₁.delete id
    obtain ⟨hagain, hg', h₃, hheld⟩ := h₂.delete id
    refine ⟨hretry, hagain, fun hk => ?_⟩
    have hunknown := h₃.unknown (by rw [hg', hg]; exact hk) hheld
    refine ⟨((Op.Triple.size_never id _).run_eq rfl).trans hunknown,
      ((Op.Triple.get_never id _).run_eq rfl).trans ?_⟩
    rw [blockOf, hunknown]
    rfl

/-- Three slots: the first holds a key, the second holds nothing, and the third holds the key and
refuses every call. -/
def oneRefusing (key : String) : Cluster :=
  { threeSlots with
    nodes := [holding key [3, 0, 0, 0] [1, 2], .ofStore "" (.memory (.empty 0)),
      { holding key [3, 0, 0, 0] [5, 6] with
        weather := fun _ _ => ⟨0, .refuse (.transport "")⟩ }] }

/-- A removal reports the slot that refuses it, and succeeds when three slots answer. -/
theorem delete_of_oneRefusing :
    let id : Digest := Block.id ⟨.blake3, [1, 2, 3]⟩
    let refusing : ℕ → Option Failure := fun i => if i = 2 then some (.transport "") else none
    (oneRefusing id.key).Removing id refusing ∧
      ((Cluster.delete .never id).run (oneRefusing id.key)).1 =
        .error (.slotsFailed 3 [(2, .transport "")]) ∧
      threeSlots.Healthy ∧ ((Cluster.delete .never id).run threeSlots).1 = .ok () := by
  intro id refusing
  have hremoving : (oneRefusing id.key).Removing id refusing := by
    refine ⟨⟨rfl, by decide, by decide⟩, fun i n e hn he => ?_, fun i n hn hi => ?_⟩
    · have hi : i = 2 := by
        by_contra hi
        simp [refusing, hi] at he
      subst hi
      obtain rfl := Option.some.inj hn
      obtain rfl : Failure.transport "" = e := Option.some.inj he
      exact ⟨rfl, by decide, rfl⟩
    · obtain _ | _ | _ | i := i
      · obtain rfl := Option.some.inj hn
        exact ⟨Store.noConfusion, Disturbance.calm_passes _⟩
      · obtain rfl := Option.some.inj hn
        exact ⟨Store.noConfusion, Disturbance.calm_passes _⟩
      · simp [refusing] at hi
      · simp [Cluster.slotNode?, oneRefusing, threeSlots] at hn
  have hbound : threeSlots.Bound := ⟨rfl, by decide, by decide⟩
  have hhealthy : threeSlots.Healthy := by
    refine ⟨hbound, fun i n hn => ?_⟩
    obtain rfl : n = .ofStore "" (.memory (.empty 0)) := by
      simpa [threeSlots] using hbound.mem_nodes hn
    exact ⟨Store.noConfusion, fun t _ m => Disturbance.calm_passes _⟩
  obtain ⟨-, hfails, -, hretry⟩ := delete_exact hremoving
  exact ⟨hremoving, hfails ⟨2, by decide, by decide⟩, hhealthy, (hretry threeSlots hhealthy).1⟩

end Cluster

end ErasureVault
