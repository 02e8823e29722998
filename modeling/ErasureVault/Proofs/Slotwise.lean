/-
  Operations, slot by slot.

  The calls of all slots do not meet, so what is true after an operation can be told node by node.
  `Cluster.Each l I`: the cluster is laid out as `l`, and `I i` holds of the node of each slot `i`.
  There is a rule for each step of reading and repairing:

  * calls of all slots, or of one, turn what holds of the nodes into what each call makes of it
    (`callAll_each`, `callSlot_each`);
  * a size is agreed on from the records that the slots answer with (`Agreed`, `agreedSize_each`),
    and a stripe collected from their shards (`Collected`, `collect_each`).
-/
import ErasureVault.Cluster.Repair
import ErasureVault.Proofs.Contents
import ErasureVault.Proofs.Key
import ErasureVault.Proofs.Recovery

namespace ErasureVault

open Function

variable {α : Type}

/-! ## Nodes of slots -/

/-- What calls leave alone in a cluster. -/
structure Layout where
  geometry : Geometry
  slots : List Binding
  limit : Option ℕ

namespace Cluster

def layout (c : Cluster) : Layout :=
  ⟨c.geometry, c.slots, c.limit⟩

/-- The cluster is laid out as `l`, and `I i` holds of the node of each slot `i`. -/
structure Each (l : Layout) (I : ℕ → Node → Prop) (c : Cluster) : Prop where
  layout : c.layout = l
  bound : c.Bound
  nodes : ∀ i n, c.slotNode? i = some n → I i n

namespace Each

variable {l : Layout} {I J : ℕ → Node → Prop} {c c' : Cluster}

theorem geometry (h : c.Each l I) : c.geometry = l.geometry :=
  congrArg Layout.geometry h.layout

theorem slots (h : c.Each l I) : c.slots = l.slots :=
  congrArg Layout.slots h.layout

theorem limit (h : c.Each l I) : c.limit = l.limit :=
  congrArg Layout.limit h.layout

theorem length_slots (h : c.Each l I) : c.slots.length = l.geometry.total := by
  rw [h.bound.length_eq, h.geometry]

theorem mono (h : c.Each l I) (hIJ : ∀ i n, I i n → J i n) : c.Each l J :=
  ⟨h.layout, h.bound, fun i n hn => hIJ i n (h.nodes i n hn)⟩

theorem congr (h : c.Each l I) (hs : c'.Same c) : c'.Each l I where
  layout := by rw [← h.layout, Cluster.layout, hs.geometry, hs.slots, hs.limit]; rfl
  bound := hs.bound h.bound
  nodes i n hn := h.nodes i n (hs.slotNode? i ▸ hn)

theorem journal (h : c.Each l I) (j : Journal) : Each l I { c with journal := j } :=
  h.congr ⟨rfl, rfl, rfl, rfl, rfl⟩

theorem codec (h : c.Each l I) {codec : Codec} (hg : codec.geometry = l.geometry) :
    Each l I { c with codec } :=
  h.congr ⟨hg.trans h.geometry.symm, rfl, rfl, rfl, rfl⟩

theorem exists_node (h : c.Each l I) {i : ℕ} (hi : i < l.geometry.total) :
    ∃ n, c.slotNode? i = some n ∧ I i n := by
  obtain ⟨n, hn⟩ := h.bound.exists_slotNode? (h.geometry ▸ hi)
  exact ⟨n, hn, h.nodes i n hn⟩

theorem lt_total (h : c.Each l I) {i : ℕ} {n : Node} (hn : c.slotNode? i = some n) :
    i < l.geometry.total :=
  h.geometry ▸ h.bound.lt_total hn

/-- What holds of one slot, and what holds of the others. -/
theorem of_update {slot : ℕ} {D : Node → Prop} (h : c.Each l (update I slot D))
    (hI : ∀ i ≠ slot, ∀ n, I i n → J i n) (hD : ∀ n, D n → J slot n) : c.Each l J := by
  refine h.mono fun i n hn => ?_
  by_cases hi : i = slot
  · subst hi
    rw [update_self] at hn
    exact hD n hn
  · rw [update_of_ne hi] at hn
    exact hI i hi n hn

theorem update_mono {slot : ℕ} {D D' : Node → Prop} (h : c.Each l (update I slot D))
    (hD : ∀ n, D n → D' n) : c.Each l (update I slot D') := by
  refine h.of_update (fun i hi n hn => ?_) fun n hn => ?_
  · rwa [update_of_ne hi]
  · rw [update_self]
    exact hD n hn

theorem exists_of_update {slot : ℕ} {D : Node → Prop} (h : c.Each l (update I slot D))
    (hslot : slot < l.geometry.total) : ∃ n, D n := by
  obtain ⟨n, -, hn⟩ := h.exists_node hslot
  rw [update_self] at hn
  exact ⟨n, hn⟩

/-- A slot has one node. -/
theorem update_or {slot : ℕ} {D D' : Node → Prop} (h : c.Each l (update I slot fun n => D n ∨ D' n)) :
    c.Each l (update I slot D) ∨ c.Each l (update I slot D') := by
  have hwhich {D : Node → Prop} (hD : ∀ n, c.slotNode? slot = some n → D n) :
      c.Each l (update I slot D) := by
    refine ⟨h.layout, h.bound, fun i n hn => ?_⟩
    by_cases hi : i = slot
    · subst hi
      rw [update_self]
      exact hD n hn
    · have := h.nodes i n hn
      rwa [update_of_ne hi] at this ⊢
  cases hn : c.slotNode? slot with
  | none => exact Or.inl (hwhich fun n hn' => by simp [hn] at hn')
  | some n =>
    have hor := h.nodes slot n hn
    rw [update_self] at hor
    refine hor.imp (fun hD => hwhich fun n' hn' => ?_) fun hD => hwhich fun n' hn' => ?_
    · exact Option.some.inj (hn.symm.trans hn') ▸ hD
    · exact Option.some.inj (hn.symm.trans hn') ▸ hD

/-- Another node in the place of that of one slot. -/
theorem set (h : c.Each l I) {slot : ℕ} {b : Binding} (hb : l.slots[slot]? = some b) {D : Node → Prop}
    {n : Node} (hn : D n) : Each l (update I slot D) { c with nodes := c.nodes.set b.node n } where
  layout := h.layout
  bound := h.bound.set b.node n
  nodes i n' hn' := by
    rw [h.bound.slotNode?_set (h.slots ▸ hb)] at hn'
    by_cases hi : i = slot
    · subst hi
      rw [if_pos rfl, Option.some.injEq] at hn'
      rw [update_self]
      exact hn' ▸ hn
    · rw [if_neg hi] at hn'
      rw [update_of_ne hi]
      exact h.nodes i n' hn'

end Each

/-- The node is that of a slot of `c`, after `k` calls that read. -/
def Since (c : Cluster) (k i : ℕ) (n : Node) : Prop :=
  ∃ n₀, c.slotNode? i = some n₀ ∧ n₀.After k n

theorem Since.after {c : Cluster} {j k i : ℕ} {n n' : Node} (h : c.Since j i n)
    (hn : n.After k n') : c.Since (j + k) i n' := by
  obtain ⟨n₀, hn₀, h⟩ := h
  exact ⟨n₀, hn₀, h.trans hn⟩

theorem Bound.each_self {c : Cluster} (hc : c.Bound) :
    c.Each c.layout fun i n => c.slotNode? i = some n :=
  ⟨rfl, hc, fun _ _ hn => hn⟩

theorem Bound.each {c : Cluster} (hc : c.Bound) : c.Each c.layout (c.Since 0) :=
  hc.each_self.mono fun _ n hn => ⟨n, hn, .refl n⟩

end Cluster

open Cluster

namespace Op.Triple

variable {l : Layout} {I J K : ℕ → Node → Prop} {token : Token} {E : Failure → Cluster → Prop}

/-! ## Calls -/

/-- What the calls of all slots answer, and leave behind. -/
theorem callAll_each {label : String} {call : ℕ → Node → Attempt α × Node}
    {J : ℕ → Outcome α → Node → Prop}
    (hcall : ∀ start i n, i < l.geometry.total → I i n →
      let s := callNode ⟨label, token, l.limit, start⟩ i (call i) n
      J i s.1.outcome s.2) :
    Triple (Each l I) (Op.callAll label token call)
      (fun answers c => answers.length = l.geometry.total ∧
        c.Each l fun i n => ∃ a, answers[i]? = some a ∧ J i a n) E := by
  refine of_each fun c hc => ?_
  refine (callAll label token call c).imp_ok ?_
  rintro _ _ ⟨start, rfl, rfl⟩
  rw [hc.limit]
  set t : Terms := ⟨label, token, l.limit, start⟩
  refine ⟨?_, hc.layout, hc.bound.called, fun i n' hn' => ?_⟩
  · rw [List.length_map, length_called, hc.length_slots]
  · rw [hc.bound.slotNode?_called, Option.map_eq_some_iff] at hn'
    obtain ⟨n, hn, rfl⟩ := hn'
    refine ⟨(callNode t i (call i) n).1.outcome, ?_, hcall start i n (hc.lt_total hn)
      (hc.nodes i n hn)⟩
    rw [List.getElem?_map, hc.bound.getElem?_called, hn]
    rfl

/-- The same with what is answered told apart from what is left behind. -/
theorem callAll_each_apart {label : String} {call : ℕ → Node → Attempt α × Node}
    {R : ℕ → Outcome α → Prop}
    (hcall : ∀ start i n, i < l.geometry.total → I i n →
      let s := callNode ⟨label, token, l.limit, start⟩ i (call i) n
      J i s.2 ∧ R i s.1.outcome) :
    Triple (Each l I) (Op.callAll label token call)
      (fun answers c => (answers.length = l.geometry.total ∧
        ∀ i a, answers[i]? = some a → R i a) ∧ c.Each l J) E := by
  refine (callAll_each (J := fun i a n => J i n ∧ R i a) hcall).imp_ok ?_
  rintro answers c ⟨hlen, hc⟩
  refine ⟨⟨hlen, fun i a ha => ?_⟩, hc.mono fun i n ⟨_, _, hJ, _⟩ => hJ⟩
  have hi : i < l.geometry.total := hlen ▸ (List.getElem?_eq_some_iff.1 ha).1
  obtain ⟨n, -, a', ha', -, hR⟩ := hc.exists_node hi
  rw [ha, Option.some.injEq] at ha'
  exact ha' ▸ hR

theorem callSlot_each {label : String} {slot : ℕ} {b : Binding} {call : Node → Attempt α × Node}
    {D : Outcome α → Node → Prop} (hb : l.slots[slot]? = some b)
    (hcall : ∀ start n, I slot n →
      let s := callNode ⟨label, token, l.limit, start⟩ slot call n
      D s.1.outcome s.2) :
    Triple (Each l I) (Op.callSlot label token slot b call)
      (fun answer c => c.Each l (update I slot (D answer))) E := by
  refine of_each fun c hc => ?_
  refine (callSlot label token slot b call c).imp_ok ?_
  rintro _ _ ⟨start, j, rfl, rfl⟩
  have hnode : c.slotNode? slot = some (c.node b.node) :=
    slotNode?_eq_some_iff.2 ⟨b, hc.slots ▸ hb, rfl⟩
  have hD := hcall start _ (hc.nodes slot _ hnode)
  rw [← hc.limit] at hD
  exact (hc.set hb hD).journal j

theorem checkToken_each :
    Triple (Each l I) (Op.checkToken token) (fun _ => Each l I)
      (fun e c => (e = .canceledByCaller ∧ token ≠ .never) ∧ c.Each l I) :=
  checkToken token fun _ hc ht => ⟨⟨rfl, ht⟩, hc⟩

end Op.Triple

/-! ## Sizes -/

/-- The decision `o` on the size of a block is made from a record of each slot, of which `R` holds;
it is not made for a caller who gave up. -/
def Agreed (g : Geometry) (key : String) (token : Token) (R : ℕ → Outcome SizeRecord → Prop)
    (o : Outcome ℕ) : Prop :=
  ∃ canceled records, (token = .never → canceled = false) ∧ records.length = g.total ∧
    (∀ i a, records[i]? = some a → R i a) ∧ concludeSize canceled key g.data records = o

/-- The size that is agreed on is that of some record. -/
theorem Agreed.exists_record {g : Geometry} {key : String} {token : Token}
    {R : ℕ → Outcome SizeRecord → Prop} {n : ℕ} (h : Agreed g key token R (.ok n)) :
    ∃ i r, R i (.ok r) ∧ r.size = n := by
  obtain ⟨canceled, records, -, -, hR, h⟩ := h
  obtain ⟨r, hq, hr⟩ := concludeSize_ok h
  have hpos := g.data_pos
  obtain ⟨i, hi⟩ := List.getElem?_of_mem (Quorum.support_pos_iff.1 (hpos.trans_le hq))
  exact ⟨i, r, hR i _ hi, hr⟩

/-- The failures of asking for a size before any slot is called. -/
def Failure.Early (g : Geometry) (token : Token) (e : Failure) : Prop :=
  (e = .canceledByCaller ∧ token ≠ .never) ∨ (g.data < 2 ∧ e = .readQuorum 0 g.data 0)

namespace Op.Triple

variable {l : Layout} {I J : ℕ → Node → Prop} {token : Token}

theorem agreedSize_each {id : Digest} {R : ℕ → Outcome SizeRecord → Prop}
    (hcall : ∀ start i n, i < l.geometry.total → I i n →
      let s := callNode ⟨"get_meta", token, l.limit, start⟩ i (Node.getSize id.key) n
      J i s.2 ∧ R i s.1.outcome) :
    Triple (Each l I) (Cluster.agreedSize token id)
      (fun size c => Agreed l.geometry id.key token R (.ok size) ∧ c.Each l J)
      (fun e c => e.Early l.geometry token ∧ c.Each l I ∨
        Agreed l.geometry id.key token R (.error e) ∧ c.Each l J) := by
  unfold Cluster.agreedSize
  refine bind (checkToken_each.imp_error fun _ _ h => Or.inl ⟨Or.inl h.1, h.2⟩) fun _ => ?_
  refine cluster.bind fun c₀ => of_each ?_
  rintro _ ⟨rfl, hc₀⟩
  have hread : c₀.thresholds.read = l.geometry.data := by rw [← hc₀.geometry]; rfl
  simp only [hread]
  by_cases hk : l.geometry.data < 2
  · simp only [hk, if_true]
    exact throw_bind fun c hc => Or.inl ⟨Or.inr ⟨hk, rfl⟩, hc ▸ hc₀⟩
  · simp only [hk, if_false]
    refine bind ((callAll_each_apart hcall).each hc₀) fun records => ?_
    refine (isCanceled token).bind fun canceled => ?_
    exact ofOutcome
      (fun n c hc h => ⟨⟨canceled, records, hc.1, hc.2.1.1, hc.2.1.2, h⟩, hc.2.2⟩)
      fun e c hc h => Or.inr ⟨⟨canceled, records, hc.1, hc.2.1.1, hc.2.1.2, h⟩, hc.2.2⟩

end Op.Triple

/-! ## Stripes -/

/-- The stripe is made of a shard of each slot, of which `R` holds; an empty block has none. -/
def Collected (g : Geometry) (size : ℕ) (R : ℕ → Outcome Bytes → Prop) (s : Stripe) : Prop :=
  (g.shardLength size = 0 ∧ s = List.replicate g.total none) ∨
    (g.shardLength size ≠ 0 ∧ ∃ answers : List (Outcome Bytes), answers.length = g.total ∧
      (∀ i a, answers[i]? = some a → R i a) ∧ s = screen (g.shardLength size) answers)

namespace Collected

variable {g : Geometry} {size : ℕ} {R S : ℕ → Outcome Bytes → Prop} {s : Stripe}

theorem mono (h : Collected g size R s) (hRS : g.shardLength size ≠ 0 → ∀ i a, R i a → S i a) :
    Collected g size S s := by
  refine h.imp_right ?_
  rintro ⟨h0, answers, hlen, hR, hs⟩
  exact ⟨h0, answers, hlen, fun i a ha => hRS h0 i a (hR i a ha), hs⟩

theorem length_eq (h : Collected g size R s) : s.length = g.total := by
  obtain ⟨-, rfl⟩ | ⟨-, answers, hlen, -, rfl⟩ := h
  · exact List.length_replicate
  · rw [length_screen, hlen]

/-- The shards of the stripe are answers of the right length. -/
theorem of_mem_present (h : Collected g size R s) {p : ℕ × Bytes} (hp : p ∈ s.present) :
    R p.1 (.ok p.2) ∧ p.2.length = g.shardLength size ∧ p.2 ≠ [] := by
  obtain ⟨-, rfl⟩ | ⟨hn, answers, -, hR, rfl⟩ := h
  · rw [present_replicate_none] at hp
    simp at hp
  · obtain ⟨ha, hlen⟩ := mem_present_screen.1 hp
    refine ⟨hR p.1 _ ha, hlen, fun hnil => hn ?_⟩
    rw [← hlen, hnil, List.length_nil]

/-- A slot that gives nothing is missing. -/
theorem getElem?_eq_none (h : Collected g size R s) {i : ℕ} (hi : i < g.total)
    (hleft : ∀ x, R i (.ok x) → x = []) : s[i]? = some none := by
  have hlt : i < s.length := h.length_eq.symm ▸ hi
  rw [List.getElem?_eq_getElem hlt]
  cases hs : s[i] with
  | none => rfl
  | some x =>
    have hmem : (i, x) ∈ s.present := Stripe.mem_present.2 (by rw [List.getElem?_eq_getElem hlt, hs])
    obtain ⟨hx, -, hne⟩ := h.of_mem_present hmem
    exact absurd (hleft x hx) hne

end Collected

namespace Op.Triple

variable {l : Layout} {I J : ℕ → Node → Prop} {token : Token}

theorem collect_each {key : String} {size : ℕ} {skip : Option ℕ} {R : ℕ → Outcome Bytes → Prop}
    (hcall : ∀ start i n, i < l.geometry.total → I i n →
      let s := callNode ⟨"get", token, l.limit, start⟩ i (fun node =>
        if skip = some i then (⟨0, .value []⟩, node) else node.get key) n
      J i s.2 ∧ R i s.1.outcome) :
    Triple (Each l I) (Cluster.collect token key size skip)
      (fun s c => Collected l.geometry size R s ∧
        c.Each l (if l.geometry.shardLength size = 0 then I else J))
      (fun e c => (e = .canceledByCaller ∧ token ≠ .never) ∧ c.Each l J) := by
  unfold Cluster.collect
  refine cluster.bind fun c₀ => of_each ?_
  rintro _ ⟨rfl, hc₀⟩
  simp only [hc₀.geometry]
  by_cases h0 : l.geometry.shardLength size = 0
  · simp only [h0, if_true]
    refine pure fun c hc => ⟨Or.inl ⟨h0, ?_⟩, hc ▸ hc₀⟩
    rw [hc₀.length_slots]
  · simp only [h0, if_false]
    refine bind ((callAll_each_apart hcall).each hc₀) fun answers => of_each ?_
    rintro c₁ ⟨⟨hlen, hanswers⟩, hc₁⟩
    refine bind (checkToken_each.each hc₁) fun _ => pure fun c hc => ?_
    exact ⟨Or.inr ⟨h0, answers, hlen, hanswers, rfl⟩, hc⟩

theorem restore_each (extent : Geometry.Extent) (size : ℕ) (s : Stripe) :
    Triple (Each l I) (Cluster.restore extent size s)
      (fun s' c => l.geometry.restored extent size s = .ok s' ∧ c.Each l I)
      (fun e c => l.geometry.restored extent size s = .error e ∧ c.Each l I) :=
  restore (fun _ _ hc hg => hc.codec hg) (fun _ hc => hc.geometry) extent size s

end Op.Triple

end ErasureVault
