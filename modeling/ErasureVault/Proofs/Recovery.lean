/-
  How a block is recovered from the answers of its slots.

  * `Geometry.restored` and `Geometry.decoded`: a stripe with its missing shards rebuilt, and the
    block that it gives. If enough shards are present and the first of them are those of a block,
    it gives the block, whatever the shards after them (`decoded_of_first`);
  * `Cluster.blockOf id`: the block that a caller who does not give up reads (`get_never`); it is
    read whenever enough slots answer well, whatever the others do (`blockOf_of_good_answers`).
-/
import ErasureVault.Proofs.AgreedSize
import ErasureVault.Proofs.Erasure

namespace ErasureVault

open Interpolation Polynomial

/-! ## Screened shards -/

namespace Stripe

theorem dropEmpty_of_ne_nil {s : Stripe} (h : ∀ p ∈ s.present, p.2 ≠ []) : s.dropEmpty = s := by
  refine List.ext_getElem? fun i => ?_
  rw [dropEmpty, List.getElem?_map]
  cases hs : s[i]? with
  | none => rfl
  | some shard =>
    cases shard with
    | none => rfl
    | some b =>
      have := h (i, b) (mem_present.2 hs)
      cases b with
      | nil => exact absurd rfl this
      | cons d b => rfl

theorem present_dropEmpty_of_nil {s : Stripe} (h : ∀ p ∈ s.present, p.2 = []) :
    s.dropEmpty.present = [] := by
  refine List.eq_nil_iff_forall_not_mem.2 fun p hp => ?_
  obtain ⟨i, b⟩ := p
  have hb := mem_present.1 hp
  rw [dropEmpty, List.getElem?_map, Option.map_eq_some_iff] at hb
  obtain ⟨shard, hs, hdrop⟩ := hb
  cases shard with
  | none => simp at hdrop
  | some c =>
    obtain rfl : c = [] := h (i, c) (mem_present.2 hs)
    simp at hdrop

end Stripe

@[simp] theorem length_screen (n : ℕ) (answers : List (Outcome Bytes)) :
    (screen n answers).length = answers.length :=
  List.length_map _

/-- The shards that pass are those of the right length. -/
theorem mem_present_screen {n i : ℕ} {b : Bytes} {answers : List (Outcome Bytes)} :
    (i, b) ∈ (screen n answers).present ↔ answers[i]? = some (.ok b) ∧ b.length = n := by
  rw [Stripe.mem_present, screen, List.getElem?_map, Option.map_eq_some_iff]
  constructor
  · rintro ⟨answer, ha, hb⟩
    cases answer with
    | error e => simp at hb
    | ok c =>
      simp only [Option.ite_none_right_eq_some, Option.some.injEq] at hb
      obtain ⟨hn, rfl⟩ := hb
      exact ⟨ha, hn⟩
  · rintro ⟨ha, hn⟩
    exact ⟨_, ha, by simp [hn]⟩

theorem present_replicate_none (n : ℕ) : Stripe.present (List.replicate n none) = [] := by
  refine List.eq_nil_iff_forall_not_mem.2 fun p hp => ?_
  have := List.mem_of_getElem? (Stripe.mem_present.1 hp)
  simp at this

namespace Geometry

open Stripe

variable {g : Geometry}

/-! ## Decoding -/

/-- The stripe with its missing shards rebuilt, unless too few are present. -/
def restored (g : Geometry) (extent : Extent) (size : ℕ) (s : Stripe) : Outcome Stripe :=
  if 0 < size ∧ s.countP Option.isSome < g.data then
    .error (.shardsMissing (s.countP Option.isSome) g.data)
  else (g.rebuild extent s).1.map fun _ => (g.rebuild extent s).2

/-- The block of the given id and size that a stripe gives. -/
def decoded (g : Geometry) (id : Digest) (size : ℕ) (s : Stripe) : Outcome Block := do
  Block.ofParts id (g.payload size (← g.restored .data size s))

theorem restored_of_enough {extent : Extent} {size : ℕ} {s : Stripe}
    (h : 0 < size → g.data ≤ s.present.length) :
    g.restored extent size s = (g.rebuild extent s).1.map fun _ => (g.rebuild extent s).2 := by
  rw [restored, if_neg]
  rintro ⟨h0, hlt⟩
  rw [← length_present] at hlt
  have := h h0
  omega

/-- A stripe without any shard is left as it is. -/
theorem rebuild_of_none (extent : Extent) {s : Stripe} (hs : s.length = g.total)
    (h : s.dropEmpty.present = []) : g.rebuild extent s = (.ok (), s.dropEmpty) := by
  have hex : g.examine s.dropEmpty = .ok false := if_pos (Or.inr h)
  rw [rebuild, if_neg (not_not.2 hs)]
  simp only [hex]

/-- The data shards that are filled in are those of the block. -/
theorem getElem?_fillData_of_first {b : Bytes} {s : Stripe} (hs : s.length = g.total)
    (hp : g.data ≤ s.present.length)
    (hfirst : ∀ p ∈ s.present.take g.data, (g.encode b)[p.1]? = some p.2) {i : ℕ}
    (hi : i < g.data) : (g.fillData s)[i]? = (g.encode b)[i]?.map some := by
  have hlt := g.data_lt_total
  have hcurve : ∀ p ∈ s.present.take g.data,
      p.2 = shardOn (g.curve b) (g.shardLength b.length) (Gf256.ofNat p.1) := by
    intro p hmem
    have hpt : p.1 < g.total := by
      have := (List.getElem?_eq_some_iff.1 (mem_present.1 (List.mem_of_mem_take hmem))).1
      omega
    have := hfirst p hmem
    rw [getElem?_encode g b hpt] at this
    exact (Option.some.inj this).symm
  rw [fillData_of_first hs hcurve (g.degree_curve b) hp, getElem?_fill,
    getElem?_encode g b (by omega)]
  cases hsi : s[i]? with
  | none =>
    have := List.getElem?_eq_none_iff.1 hsi
    omega
  | some shard =>
    cases shard with
    | none => simp [hi]
    | some c => exact congrArg (some ∘ some) (hcurve (i, c) (mem_take_present hsi hi))

/-- Of an empty block nothing is decoded. -/
theorem decoded_zero (id : Digest) {s : Stripe} (hs : s.length = g.total)
    (hn : ∀ p ∈ s.present, p.2.length = g.shardLength 0) :
    g.decoded id 0 s = Block.ofParts id [] := by
  have hnil : ∀ p ∈ s.present, p.2 = [] := fun p hp =>
    List.length_eq_zero_iff.1 ((hn p hp).trans (shardLength_eq_zero_iff.2 rfl))
  rw [decoded, restored_of_enough fun h => absurd h (Nat.lt_irrefl 0),
    rebuild_of_none _ hs (present_dropEmpty_of_nil hnil)]
  change Block.ofParts id (g.payload 0 _) = _
  rw [payload, List.take_zero]

/-- A payload is decoded from any shards of the right length, if they are enough. -/
theorem decoded_of_enough (id : Digest) {size : ℕ} {s : Stripe} (hs : s.length = g.total)
    (hn : ∀ p ∈ s.present, p.2.length = g.shardLength size) (h0 : 0 < size)
    (hp : g.data ≤ s.present.length) :
    g.decoded id size s = Block.ofParts id (g.payload size (g.fillData s)) := by
  have hne : ∀ p ∈ s.present, p.2 ≠ [] := fun p hp hnil => by
    have := hn p hp
    rw [hnil, List.length_nil] at this
    exact h0.ne' (shardLength_eq_zero_iff.1 this.symm)
  have hdrop := dropEmpty_of_ne_nil hne
  rw [decoded, restored_of_enough fun _ => hp,
    rebuild_of_enough .data hs (by rwa [hdrop]) (by rwa [hdrop]), hdrop]
  rfl

/-- **A stripe gives a block if its first shards are those of the block**, as many as the block has
data shards, whatever the shards after them. -/
theorem decoded_of_first {b : Block} {s : Stripe} (hs : s.length = g.total)
    (hn : ∀ p ∈ s.present, p.2.length = g.shardLength b.size)
    (hp : 0 < b.size → g.data ≤ s.present.length)
    (hfirst : 0 < b.size → ∀ p ∈ s.present.take g.data, (g.encode b.data)[p.1]? = some p.2) :
    g.decoded b.id b.size s = .ok b := by
  rcases Nat.eq_zero_or_pos b.size with h0 | hpos
  · rw [h0] at hn
    rw [h0, decoded_zero b.id hs hn]
    exact Block.ofParts_eq_ok_iff.2 ⟨rfl, List.length_eq_zero_iff.1 h0⟩
  · have hpayload : g.payload b.size (g.fillData s) = b.data := payload_of_data fun i hi =>
      getElem?_fillData_of_first hs (hp hpos) (hfirst hpos) hi
    rw [decoded_of_enough b.id hs hn hpos (hp hpos), hpayload]
    exact Block.ofParts_eq_ok_iff.2 ⟨rfl, rfl⟩

end Geometry

/-! ## Reading from a cluster -/

namespace Cluster

variable {c : Cluster} {id : Digest}

/-- What the slots answer when asked for their shards, one of them perhaps left out, and the
cluster after that. -/
def askShards (key : String) (skip : Option ℕ) (c : Cluster) : List (Outcome Bytes) × Cluster :=
  c.ask "get" fun slot node => if skip = some slot then (⟨0, .value []⟩, node) else node.get key

/-- The stripe of a block of the given size; an empty block has no shards. -/
def stripe (key : String) (size : ℕ) (skip : Option ℕ) (c : Cluster) : Stripe :=
  if c.geometry.shardLength size = 0 then List.replicate c.slots.length none
  else screen (c.geometry.shardLength size) (c.askShards key skip).1

/-- What the slots answer when asked for the shards of a block, after they were asked for its
size. -/
def shards (id : Digest) (c : Cluster) : List (Outcome Bytes) :=
  ((c.askSize id).2.askShards id.key none).1

/-- The block that a caller who does not give up reads. -/
def blockOf (id : Digest) (c : Cluster) : Outcome Block := do
  let size ← c.sizeOf id
  c.geometry.decoded id size ((c.askSize id).2.stripe id.key size none)

theorem length_stripe (key : String) (size : ℕ) (skip : Option ℕ) (c : Cluster) :
    (c.stripe key size skip).length = c.slots.length := by
  rw [stripe]
  split
  · exact List.length_replicate
  · simp [askShards, ask]

/-- The stripe of a block that is not empty, of the shards that the slots give. -/
theorem stripe_of_pos (c : Cluster) (id : Digest) {size : ℕ} (h0 : 0 < size) :
    (c.askSize id).2.stripe id.key size none =
      screen (c.geometry.shardLength size) (c.shards id) := by
  rw [stripe, if_neg]
  · rfl
  · intro hzero
    exact h0.ne' (Geometry.shardLength_eq_zero_iff.1 hzero)

/-- The call by which the slots are asked for their shards. -/
abbrev shardTerms (c : Cluster) : Terms := ⟨"get", .never, c.limit, 0⟩

theorem Bound.getElem?_askShards (h : c.Bound) (key : String) (i : ℕ) :
    (c.askShards key none).1[i]? = (c.slotNode? i).map fun n =>
      (callNode c.shardTerms i (Node.get key) n).1.outcome := by
  rw [askShards, ask, List.getElem?_map, h.getElem?_called, Option.map_map]
  rfl

theorem Bound.length_shards (h : c.Bound) : (c.shards id).length = c.geometry.total := by
  simp [shards, askShards, askSize, ask, h.length_eq]

theorem Bound.getElem?_shards (h : c.Bound) (i : ℕ) :
    (c.shards id)[i]? = (c.slotNode? i).map fun n =>
      (callNode c.shardTerms i (Node.get id.key)
        (callNode c.sizeTerms i (Node.getRecord id.key) n).2).1.outcome := by
  have hb : (c.askSize id).2.Bound := h.called
  rw [shards, hb.getElem?_askShards, h.slotNode?_askSize, Option.map_map]
  rfl

/-- **A block is read whenever enough slots answer well.** Enough slots report its size, and every
other size is reported by fewer; of the shards of the right length, the first ones are those of the
block. -/
theorem blockOf_of_good_answers {b : Block} (hc : c.slots.length = c.geometry.total)
    (hk : 2 ≤ c.geometry.data) (hq : c.geometry.data ≤ c.reports b.id b.size)
    (hlt : ∀ n ≠ b.size, c.reports b.id n < c.reports b.id b.size)
    (hp : 0 < b.size → c.geometry.data ≤
      (screen (c.geometry.shardLength b.size) (c.shards b.id)).present.length)
    (hfirst : 0 < b.size → ∀ p ∈ (screen (c.geometry.shardLength b.size)
      (c.shards b.id)).present.take c.geometry.data, (c.geometry.encode b.data)[p.1]? = some p.2) :
    c.blockOf b.id = .ok b := by
  rw [blockOf, sizeOf_of_majority hk hq hlt]
  refine Geometry.decoded_of_first ?_ (fun p hmem => ?_) (fun h0 => ?_) fun h0 => ?_
  · rw [length_stripe]
    exact hc
  · rw [stripe] at hmem
    split at hmem
    · simp [present_replicate_none] at hmem
    · exact (mem_present_screen.1 hmem).2
  · rw [stripe_of_pos c b.id h0]
    exact hp h0
  · rw [stripe_of_pos c b.id h0]
    exact hfirst h0

end Cluster

/-! ## Operations -/

namespace Op.Triple

variable {c : Cluster}

theorem collect_never (key : String) (size : ℕ) (skip : Option ℕ) (c : Cluster)
    {E : Failure → Cluster → Prop} :
    Triple (· = c) (Cluster.collect .never key size skip)
      (fun s c' => s = c.stripe key size skip ∧ c'.geometry = c.geometry) E := by
  unfold Cluster.collect
  refine cluster.bind fun c₀ => of_each ?_
  rintro _ ⟨rfl, rfl⟩
  by_cases h0 : c₀.geometry.shardLength size = 0
  · have hs : c₀.stripe key size skip = List.replicate c₀.slots.length none := if_pos h0
    simp only [h0, if_true]
    exact pure fun c hc => ⟨hs.symm, hc ▸ rfl⟩
  · have hs : c₀.stripe key size skip =
        screen (c₀.geometry.shardLength size) (c₀.askShards key skip).1 := if_neg h0
    simp only [h0, if_false]
    refine (callAll_never "get" _ c₀).bind fun answers => ?_
    refine (checkToken .never fun _ _ h => absurd rfl h).bind fun _ => ?_
    refine pure fun c hc => ⟨?_, ?_⟩
    · rw [hs, hc.1]
      rfl
    · rw [hc.2]
      rfl

theorem restore {I : Cluster → Prop} {g : Geometry}
    (hI : ∀ c codec, I c → codec.geometry = g → I { c with codec })
    (hg : ∀ c, I c → c.geometry = g) (extent : Geometry.Extent) (size : ℕ) (s : Stripe) :
    Triple I (Cluster.restore extent size s)
      (fun s' c => g.restored extent size s = .ok s' ∧ I c)
      (fun e c => g.restored extent size s = .error e ∧ I c) := by
  unfold Cluster.restore
  refine cluster.bind fun c₀ => of_each ?_
  rintro _ ⟨rfl, hc₀⟩
  obtain rfl := hg _ hc₀
  by_cases hfew : 0 < size ∧ s.countP Option.isSome < c₀.geometry.data
  · have hr : c₀.geometry.restored extent size s =
        .error (.shardsMissing (s.countP Option.isSome) c₀.geometry.data) := if_pos hfew
    simp only [hfew, and_self, if_true]
    exact throw_bind fun c hc => ⟨hr, hc ▸ hc₀⟩
  · have hr : c₀.geometry.restored extent size s =
        (c₀.geometry.rebuild extent s).1.map fun _ => (c₀.geometry.rebuild extent s).2 :=
      if_neg hfew
    simp only [hfew, if_false]
    refine bind (modifyCluster (Q := fun _ c => I c) fun c hc => ?_) fun _ => ?_
    · exact hI c _ (hc ▸ hc₀) rfl
    · exact ofOutcome (fun s' c hc h => ⟨hr.trans h, hc⟩) fun e c hc h => ⟨hr.trans h, hc⟩

/-- **What a caller who does not give up reads.** -/
theorem get_never (id : Digest) (c : Cluster) :
    Triple (· = c) (Cluster.get .never id) (fun b _ => c.blockOf id = .ok b)
      (fun e _ => c.blockOf id = .error e) := by
  unfold Cluster.get
  refine timed ?_ (fun _ _ _ h => h) fun _ _ _ h => h
  refine bind ((agreedSize_never id c).imp_error fun e _ h => ?_) fun size => of_each ?_
  · rw [Cluster.blockOf, h]
    rfl
  rintro _ ⟨hsize, rfl⟩
  have hblock : c.blockOf id =
      c.geometry.decoded id size ((c.askSize id).2.stripe id.key size none) := by
    rw [Cluster.blockOf, hsize]
    rfl
  rw [hblock]
  refine (collect_never id.key size none _).bind fun s => of_each ?_
  rintro c₂ ⟨rfl, hg⟩
  refine bind (((restore (I := fun c' => c'.geometry = c.geometry) (fun _ _ _ h => h) (fun _ h => h)
    .data size _).each hg).imp_error fun e c' h => ?_) fun s' => ?_
  · rw [Geometry.decoded, h.1]
    rfl
  refine cluster.bind fun c₃ => of_each ?_
  rintro _ ⟨rfl, hs', hg'⟩
  have hd : c.geometry.decoded id size ((c.askSize id).2.stripe id.key size none) =
      Block.ofParts id (c.geometry.payload size s') := by
    rw [Geometry.decoded, hs']
    rfl
  rw [hd, ← hg']
  exact ofOutcome (fun _ _ _ h => h) fun _ _ _ h => h

end Op.Triple

end ErasureVault
