/-
  What a health check can be trusted for.

  * `Geometry.sound` is the check of the shards that were collected: of a block that is not empty,
    all must be there and consistent, and their payload must have the id (`sound_iff`);
    `Cluster.healthOf id` is what a caller who does not give up is told (`verify_never`);
  * a positive check of a block that is not empty means that the block is read, and that every slot
    gives a shard of its length (`read_of_verified`). Of an empty block no slot is asked for its
    shard: the check is positive although a slot holds nothing (`verify_of_missingShard`).
-/
import ErasureVault.Proofs.Distance
import ErasureVault.Proofs.Outcomes

namespace ErasureVault

/-! ## Checking shards -/

namespace Stripe

/-- The shards of a stripe, if none is missing. -/
theorem mapM_eq_some_iff {s : Stripe} {shards : List Bytes} :
    (s.mapM fun shard => shard : Option (List Bytes)) = some shards ↔ s = shards.map some := by
  induction s generalizing shards with
  | nil => cases shards <;> simp
  | cons shard s ih =>
    cases shard with
    | none => cases shards <;> simp
    | some x =>
      cases shards with
      | nil => simp [Option.bind_eq_some_iff]
      | cons y shards =>
        simp only [List.mapM_cons, Option.bind_eq_bind, Option.bind_some, Option.bind_eq_some_iff,
          Option.pure_def, Option.some.injEq, List.cons.injEq, List.map_cons]
        constructor
        · rintro ⟨rest, hrest, rfl, rfl⟩
          exact ⟨rfl, ih.1 hrest⟩
        · rintro ⟨rfl, hrest⟩
          exact ⟨shards, ih.2 hrest, rfl, rfl⟩

theorem mem_present_map_some {shards : List Bytes} {i : ℕ} {x : Bytes} :
    (i, x) ∈ Stripe.present (shards.map some) ↔ shards[i]? = some x := by
  rw [mem_present, List.getElem?_map]
  simp

theorem length_present_map_some (shards : List Bytes) :
    (Stripe.present (shards.map some)).length = shards.length := by
  rw [length_present, List.countP_map]
  exact List.countP_eq_length.2 fun _ _ => rfl

end Stripe

/-- Shards that all pass are what every slot answered. -/
theorem getElem?_of_screen {n i : ℕ} {answers : List (Outcome Bytes)} {shards : List Bytes}
    {x : Bytes} (h : screen n answers = shards.map some) (hx : shards[i]? = some x) :
    answers[i]? = some (.ok x) ∧ x.length = n := by
  rw [← mem_present_screen, h]
  exact Stripe.mem_present_map_some.2 hx

namespace Geometry

variable {g : Geometry} {id : Digest} {size : ℕ} {s : Stripe} {shards : List Bytes}

/-- Whether the stripe of a block is whole: no shard is missing, they are consistent, and they give
a payload of the id. The stripe of an empty block is whole, whatever it is. -/
def sound (g : Geometry) (id : Digest) (size : ℕ) (s : Stripe) : Bool :=
  if size = 0 then true
  else match (s.mapM fun shard => shard : Option (List Bytes)) with
    | none => false
    | some shards => g.consistent shards && decide (id.Names (g.payload size s))

/-- **What the check finds out**, if the block is not empty. -/
theorem sound_iff (h0 : 0 < size) : g.sound id size s ↔
    ∃ shards, s = shards.map some ∧ g.consistent shards ∧ id.Names (g.payload size s) := by
  rw [sound, if_neg h0.ne']
  constructor
  · intro h
    split at h
    · simp at h
    · next shards hs =>
      rw [Bool.and_eq_true, decide_eq_true_eq] at h
      exact ⟨shards, Stripe.mapM_eq_some_iff.1 hs, h⟩
  · rintro ⟨shards, hs, h⟩
    rw [Stripe.mapM_eq_some_iff.2 hs]
    simpa using h

/-- From a stripe that lacks no shard, its own payload is decoded. -/
theorem decoded_of_full (id : Digest) (hs : shards.length = g.total) (h0 : 0 < size)
    (hn : ∀ x ∈ shards, x.length = g.shardLength size) :
    g.decoded id size (shards.map some) = Block.ofParts id (g.payload size (shards.map some)) := by
  have hlen : (shards.map some).length = g.total := by rw [List.length_map, hs]
  have hp : g.data ≤ (Stripe.present (shards.map some)).length := by
    rw [Stripe.length_present_map_some, hs]
    exact g.data_lt_total.le
  have hfull : (shards.map some).countP Option.isSome = (shards.map some).length := by
    rw [← Stripe.length_present, Stripe.length_present_map_some, List.length_map]
  rw [decoded_of_enough id hlen (fun p hmem => ?_) h0 hp, fillData, Stripe.fill_of_full hfull]
  exact hn p.2 (List.mem_of_getElem? (Stripe.mem_present_map_some.1 hmem))

end Geometry

/-! ## Checking a block -/

namespace Cluster

/-- What a caller who does not give up is told of the health of a block. -/
def healthOf (id : Digest) (c : Cluster) : Outcome Bool := do
  let size ← c.sizeOf id
  return c.geometry.sound id size ((c.askSize id).2.stripe id.key size none)

variable {c : Cluster} {id : Digest} {size : ℕ}

theorem healthOf_of_sizeOf (h : c.sizeOf id = .ok size) : c.healthOf id =
    .ok (c.geometry.sound id size ((c.askSize id).2.stripe id.key size none)) := by
  rw [healthOf, h]
  rfl

end Cluster

namespace Op.Triple

/-- **What a caller who does not give up is told.** -/
theorem verify_never (id : Digest) (c : Cluster) :
    Triple (· = c) (Cluster.verify .never id) (fun ok _ => c.healthOf id = .ok ok)
      (fun e _ => c.healthOf id = .error e) := by
  unfold Cluster.verify
  refine timed ?_ (fun _ _ _ h => h) fun _ _ _ h => h
  refine bind ((agreedSize_never id c).imp_error fun e _ h => ?_) fun size => of_each ?_
  · rw [Cluster.healthOf, h]
    rfl
  rintro _ ⟨hsize, rfl⟩
  rw [Cluster.healthOf_of_sizeOf hsize]
  refine (collect_never id.key size none _).bind fun s => of_each ?_
  rintro c₂ ⟨rfl, hg⟩
  by_cases h0 : size = 0
  · simp only [Geometry.sound, h0, if_true]
    exact pure fun _ _ => rfl
  · simp only [Geometry.sound, h0, if_false]
    cases (((c.askSize id).2.stripe id.key size none).mapM fun shard => shard :
        Option (List Bytes)) with
    | none => exact pure fun _ _ => rfl
    | some shards =>
      refine cluster.bind fun c₃ => of_each ?_
      rintro _ ⟨rfl, rfl⟩
      refine (modifyCluster (Q := fun _ _ => True) fun _ _ => trivial).bind fun _ => ?_
      exact pure fun _ _ => hg ▸ rfl

end Op.Triple

namespace Cluster

variable {c : Cluster} {id : Digest} {size : ℕ}

/-- A whole stripe is decoded to the block. -/
theorem blockOf_of_whole {shards : List Bytes} (hsize : c.sizeOf id = .ok size) (h0 : 0 < size)
    (hs : (c.askSize id).2.stripe id.key size none = shards.map some)
    (hlen : shards.length = c.geometry.total)
    (hn : ∀ x ∈ shards, x.length = c.geometry.shardLength size)
    (hnames : id.Names (c.geometry.payload size (shards.map some))) :
    ∃ b : Block, b.id = id ∧ b.size = size ∧ c.blockOf id = .ok b := by
  have hb : (Block.mk id.algorithm (c.geometry.payload size (shards.map some))).id = id := hnames
  refine ⟨_, hb, ?_, ?_⟩
  · refine Geometry.length_payload (fun i hi => ?_) (c.geometry.le_mul_shardLength size)
    have hlt : i < shards.length := hlen.symm ▸ hi.trans c.geometry.data_lt_total
    refine ⟨shards[i], ?_, hn _ (List.getElem_mem hlt)⟩
    rw [List.getElem?_map, List.getElem?_eq_getElem hlt, Option.map_some]
  · rw [blockOf_of_sizeOf hsize, hs, Geometry.decoded_of_full id hlen h0 hn]
    exact Block.ofParts_eq_ok_iff.2 ⟨hb, rfl⟩

/-- **A positive check can be trusted**, if the block is not empty: the block is read, and every
slot gives a shard of its length. -/
theorem read_of_verified (h : ((Cluster.verify .never id).run c).1 = .ok true) :
    ∃ size, ((Cluster.size .never id).run c).1 = .ok size ∧
      (0 < size →
        (∃ b : Block, b.id = id ∧ b.size = size ∧ ((Cluster.get .never id).run c).1 = .ok b) ∧
        ∀ slot < c.geometry.total, ∃ x, (c.shards id)[slot]? = some (.ok x) ∧
          x.length = c.geometry.shardLength size) := by
  rw [(Op.Triple.verify_never id c).run_eq rfl] at h
  rw [(Op.Triple.size_never id c).run_eq rfl, (Op.Triple.get_never id c).run_eq rfl]
  cases hsize : c.sizeOf id with
  | error e =>
    rw [healthOf, hsize] at h
    cases h
  | ok size =>
    refine ⟨size, rfl, fun h0 => ?_⟩
    rw [healthOf_of_sizeOf hsize] at h
    obtain ⟨shards, hs, hc, hnames⟩ := (Geometry.sound_iff h0).1 (Except.ok.inj h)
    have hscreen : screen (c.geometry.shardLength size) (c.shards id) = shards.map some := by
      rw [← stripe_of_pos c id h0, hs]
    have hlen : shards.length = c.geometry.total := by
      rw [Geometry.consistent_iff_eq_encode.1 hc, Geometry.length_encode]
    constructor
    · refine blockOf_of_whole hsize h0 hs hlen (fun x hx => ?_) (hs ▸ hnames)
      obtain ⟨slot, hslot⟩ := List.getElem?_of_mem hx
      exact (getElem?_of_screen hscreen hslot).2
    · intro slot hslot
      exact ⟨_, getElem?_of_screen hscreen (List.getElem?_eq_getElem (hlen.symm ▸ hslot))⟩

/-! ## Three slots -/

/-- Three slots that hold the parts of three bytes. -/
def wholeSlots (key : String) : Cluster where
  codec := .ofGeometry .twoAndOne 0
  policy := .quorum
  limit := none
  slots := [⟨"", 0⟩, ⟨"", 1⟩, ⟨"", 2⟩]
  nodes := [holding key [3, 0, 0, 0] [1, 2], holding key [3, 0, 0, 0] [3, 0],
    holding key [3, 0, 0, 0] [5, 6]]
  journal := []

/-- Three bytes that three slots hold are checked, and read. -/
theorem read_of_wholeSlots :
    let b : Block := ⟨.blake3, [1, 2, 3]⟩
    let c := wholeSlots b.id.key
    ((Cluster.verify .never b.id).run c).1 = .ok true ∧
      ∃ b' : Block, b'.id = b.id ∧ ((Cluster.get .never b.id).run c).1 = .ok b' := by
  intro b c
  have hverify : ((Cluster.verify .never b.id).run c).1 = .ok true := by decide +kernel
  have hsize : ((Cluster.size .never b.id).run c).1 = .ok 3 := by decide +kernel
  obtain ⟨size, hsize', hread⟩ := read_of_verified hverify
  obtain rfl := Except.ok.inj (hsize.symm.trans hsize')
  obtain ⟨⟨b', hid, -, hb'⟩, -⟩ := hread (by decide)
  exact ⟨hverify, b', hid, hb'⟩

/-- Three slots, of which the last does not hold the empty block. -/
def twoEmptyShards (key : String) : Cluster :=
  { wholeSlots key with
    nodes := [holding key [0, 0, 0, 0] [], holding key [0, 0, 0, 0] [],
      .ofStore "" (.memory (.empty 0))] }

set_option maxRecDepth 100000 in
/-- **The check of the empty block is positive although a slot does not hold its shard.** -/
theorem verify_of_missingShard :
    let b : Block := ⟨.blake3, []⟩
    let c := twoEmptyShards b.id.key
    ((Cluster.verify .never b.id).run c).1 = .ok true ∧
      ((Cluster.size .never b.id).run c).1 = .ok 0 ∧
      (c.shards b.id)[2]? = some (.error (.keyUnknown b.id.key)) := by
  decide +kernel

end Cluster

end ErasureVault
