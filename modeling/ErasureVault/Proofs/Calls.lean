/-
  Calls of slots: what they answer, and what they leave behind.

  * `callNode` ends with the reaction of the node, unless the call is stopped or breaks down
    (`callNode_ok`), and either has run on the node or has not (`callNode_node`);
  * `Cluster.Bound`: the slots are as many as the geometry has, each bound to a node of its own.
    Then the calls of all slots do not meet: what a slot answers, and how its node is left, is
    told by that node alone (`getElem?_called`, `slotNode?_called`);
  * `Cluster.ask` are the calls of all slots for a caller who does not give up.
-/
import ErasureVault.Proofs.Op
import Mathlib.Data.List.Nodup

namespace ErasureVault

variable {α β : Type}

/-! ## One call -/

section
variable {t : Terms} {slot : ℕ} {call : Node → Attempt α × Node} {n : Node}

/-- A call that is stopped fails, and leaves the node alone. -/
theorem callNode_of_stopped {e : Failure} {elapsed : ℕ}
    (h : t.cutOff slot (call n).1.delay = some (e, elapsed)) :
    (callNode t slot call n).1.outcome = .error e ∧ (callNode t slot call n).2 = n.tick := by
  have hs : t.settle slot (call n).1 =
      ⟨.error e, elapsed, false, t.eventsOf (.error e : Outcome α)⟩ := by
    rw [Terms.settle, h]
  simp [callNode, hs]

/-- A call that is not stopped ends with the reaction of the node. -/
theorem callNode_of_reached (h : t.cutOff slot (call n).1.delay = none) :
    (callNode t slot call n).1.outcome = (t.conclude slot (call n).1.reaction).1 ∧
      (callNode t slot call n).2 = (call n).2.tick := by
  have hs : t.settle slot (call n).1 = ⟨(t.conclude slot (call n).1.reaction).1, (call n).1.delay,
      true, (t.conclude slot (call n).1.reaction).2⟩ := by
    rw [Terms.settle, h]
  simp [callNode, hs]

/-- A call that gave a value ran to its end, and the node gave that value. -/
theorem callNode_ok {a : α} (h : (callNode t slot call n).1.outcome = .ok a) :
    (call n).1.reaction = .value a ∧ (callNode t slot call n).2 = (call n).2.tick := by
  cases hcut : t.cutOff slot (call n).1.delay with
  | some stop =>
    rw [(callNode_of_stopped hcut).1] at h
    simp at h
  | none =>
    obtain ⟨ho, hn⟩ := callNode_of_reached hcut
    rw [ho] at h
    cases hr : (call n).1.reaction with
    | value b => exact ⟨by simpa [hr, Terms.conclude] using h, hn⟩
    | failure e => simp [hr, Terms.conclude] at h
    | panic => simp [hr, Terms.conclude] at h

/-- A call runs on the node, or leaves it alone. -/
theorem callNode_node (t : Terms) (slot : ℕ) (call : Node → Attempt α × Node) (n : Node) :
    (callNode t slot call n).2 = n.tick ∨ (callNode t slot call n).2 = (call n).2.tick := by
  cases hcut : t.cutOff slot (call n).1.delay with
  | some stop => exact Or.inl (callNode_of_stopped hcut).2
  | none => exact Or.inr (callNode_of_reached hcut).2

/-- An answer that is read further fails where it cannot be read. -/
theorem callNode_mapOutcome (t : Terms) (slot : ℕ) (f : α → Outcome β)
    (call : Node → Attempt α × Node) (n : Node) :
    let r := callNode t slot (fun n => ((call n).1.mapOutcome f, (call n).2)) n
    r.1.outcome = (callNode t slot call n).1.outcome.bind f ∧ r.2 = (callNode t slot call n).2 := by
  intro r
  set mapped : Node → Attempt β × Node := fun n => ((call n).1.mapOutcome f, (call n).2)
  have hdelay : (mapped n).1.delay = (call n).1.delay := rfl
  cases hcut : t.cutOff slot (call n).1.delay with
  | some stop =>
    obtain ⟨ho, hn⟩ := callNode_of_stopped hcut
    rw [← hdelay] at hcut
    obtain ⟨ho', hn'⟩ := callNode_of_stopped hcut
    exact ⟨by rw [ho', ho]; rfl, by rw [hn', hn]⟩
  | none =>
    obtain ⟨ho, hn⟩ := callNode_of_reached hcut
    rw [← hdelay] at hcut
    obtain ⟨ho', hn'⟩ := callNode_of_reached hcut
    refine ⟨?_, by rw [hn', hn]⟩
    rw [ho', ho, show (mapped n).1 = (call n).1.mapOutcome f from rfl, Attempt.mapOutcome]
    cases (call n).1.reaction with
    | value a =>
      simp only [Terms.conclude, Except.bind]
      cases f a <;> rfl
    | failure e => rfl
    | panic => rfl

theorem callNode_mapOutcome_ok {f : α → Outcome β} {b : β}
    (h : (callNode t slot (fun n => ((call n).1.mapOutcome f, (call n).2)) n).1.outcome = .ok b) :
    ∃ a, (callNode t slot call n).1.outcome = .ok a ∧ f a = .ok b := by
  rw [(callNode_mapOutcome t slot f call n).1] at h
  cases ha : (callNode t slot call n).1.outcome with
  | error e => simp [ha, Except.bind] at h
  | ok a =>
    rw [ha] at h
    exact ⟨a, rfl, h⟩

end

/-! ## The calls of all slots -/

section
variable (t : Terms) (call : ℕ → Node → Attempt α × Node)

theorem length_callSlots (slot : ℕ) (numbers : List ℕ) (nodes : List Node) :
    (callSlots t call slot numbers nodes).1.length = numbers.length := by
  induction numbers generalizing slot nodes with
  | nil => rfl
  | cons number numbers ih => simp [callSlots, ih]

theorem length_nodes_callSlots (slot : ℕ) (numbers : List ℕ) (nodes : List Node) :
    (callSlots t call slot numbers nodes).2.length = nodes.length := by
  induction numbers generalizing slot nodes with
  | nil => rfl
  | cons number numbers ih => simp [callSlots, ih]

/-- A node that no slot is bound to is left alone. -/
theorem getElem?_callSlots_of_not_mem {numbers : List ℕ} {number : ℕ} (h : number ∉ numbers)
    (slot : ℕ) (nodes : List Node) :
    (callSlots t call slot numbers nodes).2[number]? = nodes[number]? := by
  induction numbers generalizing slot nodes with
  | nil => rfl
  | cons first numbers ih =>
    rw [List.mem_cons, not_or] at h
    rw [callSlots, ih h.2, List.getElem?_set_ne (Ne.symm h.1)]

/-- Slots bound to different nodes are called as if each was called alone. -/
theorem getElem?_callSlots {numbers : List ℕ} (hd : numbers.Nodup) (slot : ℕ) {nodes : List Node}
    (hlt : ∀ number ∈ numbers, number < nodes.length) {i number : ℕ}
    (h : numbers[i]? = some number) :
    let r := callNode t (slot + i) (call (slot + i)) (nodes.getD number default)
    (callSlots t call slot numbers nodes).1[i]? = some r.1 ∧
      (callSlots t call slot numbers nodes).2[number]? = some r.2 := by
  induction numbers generalizing slot nodes i with
  | nil => simp at h
  | cons first numbers ih =>
    obtain ⟨hnot, hd⟩ := List.nodup_cons.1 hd
    obtain ⟨hfirst, hlt⟩ := List.forall_mem_cons.1 hlt
    simp only [callSlots]
    cases i with
    | zero =>
      obtain rfl : first = number := by simpa using h
      refine ⟨rfl, ?_⟩
      rw [getElem?_callSlots_of_not_mem t call hnot, List.getElem?_set_self hfirst]
      rfl
    | succ i =>
      have hi : numbers[i]? = some number := by simpa using h
      have hne : first ≠ number := fun he => hnot (he ▸ List.mem_of_getElem? hi)
      set nodes' := nodes.set first (callNode t slot (call slot) (nodes.getD first default)).2
        with hnodes'
      have hlt' : ∀ number ∈ numbers, number < nodes'.length := by simpa [hnodes'] using hlt
      have hnext := ih hd (slot + 1) hlt' hi
      rw [hnodes', List.getD_eq_getElem?_getD, List.getElem?_set_ne hne,
        ← List.getD_eq_getElem?_getD, Nat.add_right_comm, Nat.add_assoc slot i 1] at hnext
      exact hnext

/-- Whatever a slot answers, it is what some node answered. -/
theorem exists_callNode_of_mem_callSlots {t : Terms} {call : ℕ → Node → Attempt α × Node}
    {slot : ℕ} {numbers : List ℕ} {nodes : List Node} {s : Settled α}
    (h : s ∈ (callSlots t call slot numbers nodes).1) :
    ∃ i n, s = (callNode t i (call i) n).1 := by
  induction numbers generalizing slot nodes with
  | nil => simp [callSlots] at h
  | cons number numbers ih =>
    simp only [callSlots] at h
    rcases List.mem_cons.1 h with rfl | h
    · exact ⟨slot, _, rfl⟩
    · exact ih h

end

namespace Cluster

/-- As many slots as the geometry has, each bound to a node of its own. -/
structure Bound (c : Cluster) : Prop where
  length_eq : c.slots.length = c.geometry.total
  nodup : (c.slots.map Binding.node).Nodup
  node_lt : ∀ b ∈ c.slots, b.node < c.nodes.length

/-- The node that a slot is bound to. -/
def slotNode? (c : Cluster) (i : ℕ) : Option Node :=
  c.slots[i]?.map fun b => c.node b.node

/-- The calls of all slots: what became of them, and the cluster after them. -/
def called (t : Terms) (call : ℕ → Node → Attempt α × Node) (c : Cluster) :
    List (Settled α) × Cluster :=
  let (settled, nodes) := callSlots t call 0 (c.slots.map Binding.node) c.nodes
  (settled, { c with nodes, journal := countedOf settled ++ c.journal })

variable {c : Cluster} {t : Terms} {call : ℕ → Node → Attempt α × Node}

theorem slotNode?_eq_some_iff {i : ℕ} {n : Node} :
    c.slotNode? i = some n ↔ ∃ b, c.slots[i]? = some b ∧ c.node b.node = n :=
  Option.map_eq_some_iff

theorem Bound.mem_nodes (h : c.Bound) {i : ℕ} {n : Node} (hn : c.slotNode? i = some n) :
    n ∈ c.nodes := by
  obtain ⟨b, hb, rfl⟩ := slotNode?_eq_some_iff.1 hn
  have hlt := h.node_lt b (List.mem_of_getElem? hb)
  rw [node, List.getD_eq_getElem?_getD, List.getElem?_eq_getElem hlt]
  exact List.getElem_mem hlt

theorem Bound.isSome_slotNode? (h : c.Bound) {i : ℕ} :
    (c.slotNode? i).isSome ↔ i < c.geometry.total := by
  rw [slotNode?, Option.isSome_map, ← h.length_eq, isSome_getElem?]

/-- The node of a slot that the geometry has. -/
theorem Bound.exists_slotNode? (h : c.Bound) {i : ℕ} (hi : i < c.geometry.total) :
    ∃ n, c.slotNode? i = some n :=
  Option.isSome_iff_exists.1 (h.isSome_slotNode?.2 hi)

theorem Bound.lt_total (h : c.Bound) {i : ℕ} {n : Node} (hn : c.slotNode? i = some n) :
    i < c.geometry.total :=
  h.isSome_slotNode?.1 (hn ▸ rfl)

@[simp] theorem called_geometry : (c.called t call).2.geometry = c.geometry := rfl

@[simp] theorem called_slots : (c.called t call).2.slots = c.slots := rfl

@[simp] theorem called_limit : (c.called t call).2.limit = c.limit := rfl

@[simp] theorem length_called : (c.called t call).1.length = c.slots.length := by
  simp [called, length_callSlots]

theorem Bound.called (h : c.Bound) : (c.called t call).2.Bound where
  length_eq := h.length_eq
  nodup := h.nodup
  node_lt b hb := by
    have := h.node_lt b hb
    rwa [← length_nodes_callSlots t call 0 (c.slots.map Binding.node) c.nodes] at this

theorem Bound.getElem?_callSlots (h : c.Bound) {i : ℕ} {b : Binding} (hb : c.slots[i]? = some b) :
    let r := callNode t i (call i) (c.node b.node)
    (c.called t call).1[i]? = some r.1 ∧ (c.called t call).2.nodes[b.node]? = some r.2 := by
  have hlt : ∀ number ∈ c.slots.map Binding.node, number < c.nodes.length := by
    intro number hn
    obtain ⟨b, hb, rfl⟩ := List.mem_map.1 hn
    exact h.node_lt b hb
  have hi : (c.slots.map Binding.node)[i]? = some b.node := by simp [hb]
  have := ErasureVault.getElem?_callSlots t call h.nodup 0 hlt hi
  rwa [Nat.zero_add] at this

/-- **What a slot answers is told by its node.** -/
theorem Bound.getElem?_called (h : c.Bound) (call : ℕ → Node → Attempt α × Node) (i : ℕ) :
    (c.called t call).1[i]? = (c.slotNode? i).map fun n => (callNode t i (call i) n).1 := by
  cases hb : c.slots[i]? with
  | none =>
    rw [slotNode?, hb, List.getElem?_eq_none]
    · rfl
    · rw [length_called]
      exact List.getElem?_eq_none_iff.1 hb
  | some b =>
    rw [slotNode?, hb, (h.getElem?_callSlots hb).1]
    rfl

/-- **The calls of the other slots do not touch the node of a slot.** -/
theorem Bound.slotNode?_called (h : c.Bound) (call : ℕ → Node → Attempt α × Node) (i : ℕ) :
    (c.called t call).2.slotNode? i = (c.slotNode? i).map fun n => (callNode t i (call i) n).2 := by
  cases hb : c.slots[i]? with
  | none => simp [slotNode?, hb]
  | some b =>
    simp only [slotNode?, called_slots, hb, Option.map_some, Option.some.injEq]
    rw [node, List.getD_eq_getElem?_getD, (h.getElem?_callSlots hb).2]
    rfl

/-- The same slots over the same nodes. -/
structure Same (c' c : Cluster) : Prop where
  geometry : c'.geometry = c.geometry
  policy : c'.policy = c.policy
  limit : c'.limit = c.limit
  slots : c'.slots = c.slots
  nodes : c'.nodes = c.nodes

theorem Same.bound {c c' : Cluster} (h : c'.Same c) (hb : c.Bound) : c'.Bound where
  length_eq := by rw [h.slots, h.geometry, hb.length_eq]
  nodup := h.slots ▸ hb.nodup
  node_lt := by
    rw [h.slots, h.nodes]
    exact hb.node_lt

theorem Same.slotNode? {c c' : Cluster} (h : c'.Same c) (i : ℕ) :
    c'.slotNode? i = c.slotNode? i := by
  simp only [Cluster.slotNode?, node, h.slots, h.nodes]

/-- A node in the place of that of one slot. -/
theorem Bound.slotNode?_set (h : c.Bound) {slot : ℕ} {b : Binding} (hb : c.slots[slot]? = some b)
    (n : Node) (i : ℕ) :
    ({ c with nodes := c.nodes.set b.node n }).slotNode? i =
      if i = slot then some n else c.slotNode? i := by
  have hlt : b.node < c.nodes.length := h.node_lt b (List.mem_of_getElem? hb)
  by_cases hi : i = slot
  · rw [if_pos hi, hi]
    simp [slotNode?, hb, node, List.getElem?_set_self hlt, List.getD_eq_getElem?_getD]
  · rw [if_neg hi]
    cases hbi : c.slots[i]? with
    | none => simp [slotNode?, hbi]
    | some b' =>
      have hne : b.node ≠ b'.node := by
        intro he
        have hlen : i < (c.slots.map Binding.node).length := by
          rw [List.length_map]
          exact (List.getElem?_eq_some_iff.1 hbi).1
        refine hi ((List.getElem?_inj hlen h.nodup).1 ?_)
        simp [hb, hbi, he]
      simp [slotNode?, hbi, node, List.getD_eq_getElem?_getD, List.getElem?_set_ne hne]

theorem Bound.set (h : c.Bound) (number : ℕ) (n : Node) :
    ({ c with nodes := c.nodes.set number n } : Cluster).Bound where
  length_eq := h.length_eq
  nodup := h.nodup
  node_lt b hb := by
    rw [List.length_set]
    exact h.node_lt b hb

/-! ## Callers who do not give up -/

/-- What the slots answer when all are called by a caller who does not give up, and the cluster
after that. -/
def ask (label : String) (call : ℕ → Node → Attempt α × Node) (c : Cluster) :
    List (Outcome α) × Cluster :=
  let (settled, c') := c.called ⟨label, .never, c.limit, 0⟩ call
  (settled.map Settled.outcome, c')

end Cluster

/-- For a caller who does not give up, it does not matter when the calls begin. -/
theorem callSlots_never (label : String) (limit : Option ℕ) (start start' : ℕ)
    (call : ℕ → Node → Attempt α × Node) (slot : ℕ) (numbers : List ℕ) (nodes : List Node) :
    callSlots ⟨label, .never, limit, start⟩ call slot numbers nodes =
      callSlots ⟨label, .never, limit, start'⟩ call slot numbers nodes := by
  induction numbers generalizing slot nodes with
  | nil => rfl
  | cons number numbers ih =>
    have hn : callNode ⟨label, .never, limit, start⟩ slot (call slot) (nodes.getD number default) =
        callNode ⟨label, .never, limit, start'⟩ slot (call slot) (nodes.getD number default) := rfl
    simp only [callSlots]
    rw [hn, ih]

namespace Op.Triple

variable {P : Cluster → Prop} {E : Failure → Cluster → Prop}

theorem callAll (label : String) (token : Token) (call : ℕ → Node → Attempt α × Node)
    (c : Cluster) : Triple (· = c) (Op.callAll label token call)
      (fun answers c' => ∃ start, let t := ⟨label, token, c.limit, start⟩
        answers = (c.called t call).1.map Settled.outcome ∧ c' = (c.called t call).2) E := by
  rintro p rfl
  exact ⟨p.now, rfl, rfl⟩

theorem callAll_never (label : String) (call : ℕ → Node → Attempt α × Node) (c : Cluster) :
    Triple (· = c) (Op.callAll label .never call)
      (fun answers c' => answers = (c.ask label call).1 ∧ c' = (c.ask label call).2) E := by
  rintro p rfl
  have h := callSlots_never label p.cluster.limit p.now 0 call 0
    (p.cluster.slots.map Binding.node) p.cluster.nodes
  show _ = _ ∧ _ = _
  rw [Cluster.ask, Cluster.called, ← h]
  exact ⟨rfl, rfl⟩

theorem callSlot (label : String) (token : Token) (slot : ℕ) (b : Binding)
    (call : Node → Attempt α × Node) (c : Cluster) :
    Triple (· = c) (Op.callSlot label token slot b call)
      (fun answer c' => ∃ start j,
        let r := callNode ⟨label, token, c.limit, start⟩ slot call (c.node b.node)
        answer = r.1.outcome ∧ c' = { c with nodes := c.nodes.set b.node r.2, journal := j }) E := by
  rintro p rfl
  exact ⟨p.now, _, rfl, rfl⟩

end Op.Triple

end ErasureVault
