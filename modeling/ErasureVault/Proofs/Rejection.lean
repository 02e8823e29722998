/-
  Requests that are rejected.

  * `Op.Rejected c e x`: begun on the cluster `c`, the operation `x` fails with `e`, no slot is
    bound anew, and no node is called;
  * a block that is too large is not written; a slot that is not in the table is neither bound nor
    repaired, and no slot is repaired from one (`Op.Rejected.put` and so on);
  * a replacement is the repair of a slot that is bound to the new node by then (`run_replace`). So
    it is rejected for its slot, but for its source it is refused only after the slot is bound
    (`replace_refused`, `replace_of_unknownSource`).
-/
import ErasureVault.Cluster.Repair
import ErasureVault.Cluster.Write
import ErasureVault.Proofs.Erasure
import ErasureVault.Proofs.Op

namespace ErasureVault

variable {α β : Type}

namespace Op

/-- Operations that do the same from the beginning have the same run. -/
theorem run_congr {x y : Op α} {c c' : Cluster} (h : x ⟨c, 0⟩ = y ⟨c', 0⟩) : x.run c = y.run c' :=
  congrArg (fun r : Outcome α × Progress => (r.1, r.2.now, r.2.cluster)) h

/-- Begun on the cluster `c`, the operation fails with `e`; no slot is bound anew, and no node is
called. -/
abbrev Rejected (c : Cluster) (e : Failure) (x : Op α) : Prop :=
  Triple (· = c) x (fun _ _ => False)
    fun e' c' => e' = e ∧ c'.slots = c.slots ∧ c'.nodes = c.nodes

namespace Rejected

variable {c : Cluster} {e : Failure} {x : Op α}

theorem run (h : Rejected c e x) :
    (x.run c).1 = .error e ∧ (x.run c).2.2.slots = c.slots ∧ (x.run c).2.2.nodes = c.nodes := by
  cases ho : (x.run c).1 with
  | ok a => exact (h.run_ok rfl ho).elim
  | error e' =>
    obtain ⟨rfl, hsame⟩ := h.run_error rfl ho
    exact ⟨rfl, hsame⟩

/-- What comes after a rejected operation is not done. -/
theorem bind (h : Rejected c e x) (f : α → Op β) : Rejected c e (x >>= f) :=
  Triple.bind h fun _ _ hp => hp.elim

theorem timed {name : String} (h : Rejected c e x) : Rejected c e (Op.timed name x) :=
  Triple.timed h (fun _ _ _ hq => hq) fun _ _ _ he => he

theorem throw (c : Cluster) (e : Failure) : Rejected c e (MonadExcept.throw e : Op α) :=
  Triple.throw fun _ hc => ⟨rfl, hc ▸ ⟨rfl, rfl⟩⟩

/-! ## Blocks that are too large -/

/-- A block that has no record is not written. -/
theorem put (token : Token) {b : Block} (h : SizeRecord.maxSize < b.size) :
    Rejected c (.blockTooLarge b.size SizeRecord.maxSize) (Cluster.put token b) := by
  unfold Cluster.put Cluster.putBy
  refine timed ?_
  rw [SizeRecord.ofSize, if_neg (Nat.not_le.2 h)]
  exact bind (throw c _) _

/-! ## Slots that are not in the table -/

theorem rebind {slot : ℕ} (new : Binding) (h : c.slots.length ≤ slot) :
    Rejected c (.noSuchSlot slot c.slots.length) (Cluster.rebind slot new) := by
  have hrebind : Slots.rebind slot new c.slots = .error (.noSuchSlot slot c.slots.length) :=
    Slots.rebind_eq_error_iff.2 ⟨h, rfl⟩
  refine Triple.cluster.bind fun c₀ => Triple.of_each ?_
  rintro _ ⟨rfl, rfl⟩
  rw [hrebind]
  exact bind (throw c₀ _) _

/-- A repair of a slot that is not in the table, or from one, is not begun. -/
theorem repair (token : Token) (source slot : ℕ)
    (h : c.slots.length ≤ source ∨ c.slots.length ≤ slot) :
    Rejected c (.noSuchSlot (if c.slots.length ≤ source then source else slot) c.slots.length)
      (Cluster.repair token source slot) := by
  unfold Cluster.repair Cluster.repairBy
  refine timed (Triple.cluster.bind fun c₀ => Triple.of_each ?_)
  rintro _ ⟨rfl, rfl⟩
  dsimp only
  split
  · exact bind (throw c₀ _) _
  next hsource =>
    rw [if_pos (h.resolve_left hsource)]
    exact bind (throw c₀ _) _

end Rejected

end Op

namespace Cluster

variable {c : Cluster} {source slot : ℕ}

/-! ## Replacements -/

/-- The cluster with a slot bound to `new`. -/
def bindSlot (slot : ℕ) (new : Binding) (c : Cluster) : Cluster :=
  { c with slots := c.slots.set slot new }

theorem rebind_apply (new : Binding) {old : Binding} {p : Progress}
    (h : p.cluster.slots[slot]? = some old) :
    Cluster.rebind slot new p = (.ok old, ⟨p.cluster.bindSlot slot new, p.now⟩) := by
  have hrebind : Slots.rebind slot new p.cluster.slots = .ok (old, p.cluster.slots.set slot new) :=
    Slots.rebind_eq_ok_iff.2 ⟨h, rfl⟩
  change (Op.ofOutcome (Slots.rebind slot new p.cluster.slots) >>= _) p = _
  rw [hrebind]
  rfl

theorem run_rebind (new : Binding) {old : Binding} (h : c.slots[slot]? = some old) :
    (Cluster.rebind slot new).run c = (.ok old, 0, c.bindSlot slot new) :=
  Op.run_congr (y := pure old) (rebind_apply new h)

/-- A replacement is the repair of a slot that is bound to the new node by then. -/
theorem run_replace (token : Token) (new : Binding) (h : slot < c.slots.length) :
    (Cluster.replace token source slot new).run c =
      (Cluster.repair token source slot).run (c.bindSlot slot new) := by
  refine Op.run_congr ?_
  rw [Cluster.replace, replaceBy, Op.bind_apply, rebind_apply new (List.getElem?_eq_getElem h)]
  rfl

/-- The bindings are as before if there is no such slot, or it was bound to that anyway. -/
theorem slots_bindSlot_eq_iff {new : Binding} :
    (c.bindSlot slot new).slots = c.slots ↔ c.slots.length ≤ slot ∨ c.slots[slot]? = some new := by
  constructor
  · intro h
    refine or_iff_not_imp_left.2 fun hlt => ?_
    rw [← h, bindSlot, List.getElem?_set_self (Nat.not_le.1 hlt)]
  · rintro (hle | hnew)
    · exact List.set_eq_of_length_le hle
    · obtain ⟨hlt, rfl⟩ := List.getElem?_eq_some_iff.1 hnew
      exact List.set_getElem_self hlt

/-- A slot that is bound to its old node again is as it was. -/
theorem run_rebind_old {after : Cluster} {new old : Binding}
    (hafter : after.slots = (c.bindSlot slot new).slots) (hold : c.slots[slot]? = some old) :
    let undone := (Cluster.rebind slot old).run after
    undone.1 = .ok new ∧ undone.2.2.slots = c.slots ∧ undone.2.2.nodes = after.nodes := by
  have hlt : slot < c.slots.length := (List.getElem?_eq_some_iff.1 hold).1
  have hnew : after.slots[slot]? = some new := by
    rw [hafter, bindSlot, List.getElem?_set_self hlt]
  have hslots : after.slots.set slot old = c.slots := by
    rw [hafter, bindSlot, List.set_set]
    exact slots_bindSlot_eq_iff.2 (Or.inr hold)
  rw [run_rebind old hnew]
  exact ⟨rfl, hslots, rfl⟩

/-- **What a replacement that is refused leaves behind.** If its slot or its source is not in the
table, a replacement is refused, for the slot if that is not there. No node is called. The bindings
are as before exactly if there is no such slot, or it was bound to the new node anyway, as a slot is
bound before its source is looked for; bound to the old node again, it is as it was. -/
theorem replace_refused (hc : c.slots.length = c.geometry.total) (token : Token) (source slot : ℕ)
    (new : Binding) (h : c.geometry.total ≤ source ∨ c.geometry.total ≤ slot) :
    let total := c.geometry.total
    let replaced := (Cluster.replace token source slot new).run c
    let after := replaced.2.2
    replaced.1 = .error (.noSuchSlot (if total ≤ slot then slot else source) total) ∧
    after.nodes = c.nodes ∧
    (after.slots = c.slots ↔ total ≤ slot ∨ c.slots[slot]? = some new) ∧
    ∀ old, c.slots[slot]? = some old →
      let undone := (Cluster.rebind slot old).run after
      undone.1 = .ok new ∧ undone.2.2.slots = c.slots ∧ undone.2.2.nodes = c.nodes := by
  rw [← hc] at h ⊢
  intro total replaced after
  rcases Nat.lt_or_ge slot total with hslot | hslot
  · -- The slot is bound by the time the repair is refused for its source.
    have hlength : (c.bindSlot slot new).slots.length = total := List.length_set ..
    have hsource : total ≤ source := h.resolve_right (Nat.not_le.2 hslot)
    have hrefused := Op.Rejected.repair token source slot (Or.inl (hlength.symm ▸ hsource))
    rw [hlength, if_pos hsource] at hrefused
    obtain ⟨houtcome, hslots, hnodes⟩ := hrefused.run
    rw [← run_replace token new hslot] at houtcome hslots hnodes
    refine ⟨?_, hnodes, ?_, fun old hold => ?_⟩
    · rw [if_neg (Nat.not_le.2 hslot)]
      exact houtcome
    · rw [hslots]
      exact slots_bindSlot_eq_iff
    · obtain ⟨houtcome', hslots', hnodes'⟩ := run_rebind_old hslots hold
      exact ⟨houtcome', hslots', hnodes'.trans hnodes⟩
  · obtain ⟨houtcome, hslots, hnodes⟩ := ((Op.Rejected.rebind new hslot).bind fun _ =>
      Cluster.repair token source slot).run
    refine ⟨?_, hnodes, iff_of_true hslots (Or.inl hslot), fun old hold => ?_⟩
    · rw [if_pos hslot]
      exact houtcome
    · rw [List.getElem?_eq_none hslot] at hold
      cases hold

/-- Three slots over the first three of four empty nodes. -/
def spareNode : Cluster where
  codec := .ofGeometry .twoAndOne 0
  policy := .quorum
  limit := none
  slots := [⟨"a", 0⟩, ⟨"b", 1⟩, ⟨"c", 2⟩]
  nodes := List.replicate 4 (.ofStore "" (.memory (.empty 0)))
  journal := []

/-- Nothing is bound in the place of a slot that there is not; and what is bound in the place of the
second, although it was to be repaired from such a slot, can be bound to its node again. -/
theorem replace_of_spareNode :
    let replaced (slot : ℕ) := ((Cluster.replace .never 3 slot ⟨"d", 3⟩).run spareNode).2.2
    spareNode.slots.length = spareNode.geometry.total ∧ spareNode.geometry.total ≤ 3 ∧
      (replaced 7).slots = spareNode.slots ∧
      ((Cluster.rebind 1 ⟨"b", 1⟩).run (replaced 1)).2.2.slots = spareNode.slots := by
  intro replaced
  have hc : spareNode.slots.length = spareNode.geometry.total := rfl
  have hsource : spareNode.geometry.total ≤ 3 := Nat.le_refl 3
  obtain ⟨-, -, hslots, -⟩ := replace_refused hc .never 3 7 ⟨"d", 3⟩ (Or.inl hsource)
  obtain ⟨-, -, -, hundone⟩ := replace_refused hc .never 3 1 ⟨"d", 3⟩ (Or.inl hsource)
  exact ⟨hc, hsource, hslots.2 (Or.inl (by decide)), (hundone ⟨"b", 1⟩ rfl).2.1⟩

/-- **A replacement that is refused for its source has bound its slot to the new node.** -/
theorem replace_of_unknownSource :
    let replaced := (Cluster.replace .never 3 1 ⟨"d", 3⟩).run spareNode
    replaced.1 = .error (.noSuchSlot 3 3) ∧ replaced.2.2.slots ≠ spareNode.slots := by
  decide

end Cluster

end ErasureVault
