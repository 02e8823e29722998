/-
  What a read ends with, whatever the slots answer.

  Of the shards that the slots give, those of the right length are kept, so that the codec has
  nothing to complain about: either they are too few (`decoded_of_few`), or they make a payload of
  the size that was agreed on (`exists_payload_of_enough`), which has the id or not. Hence every
  end that a read can have (`get_cases`): the failure to agree on a size, too few shards, the block,
  or a payload of the right size that is not the block.
-/
import ErasureVault.Proofs.Padding

namespace ErasureVault

namespace Geometry

open Stripe

variable {g : Geometry} {size n : ℕ} {s : Stripe}

/-! ## Decoding any shards -/

theorem decoded_of_few (id : Digest) (h0 : 0 < size) (hp : s.present.length < g.data) :
    g.decoded id size s = .error (.shardsMissing s.present.length g.data) := by
  rw [decoded, restored, ← length_present, if_pos ⟨h0, hp⟩]
  rfl

/-- Data shards that have room for a payload give one of its size. -/
theorem length_payload (h : ∀ i < g.data, ∃ x, s[i]? = some (some x) ∧ x.length = n)
    (hsize : size ≤ g.data * n) : (g.payload size s).length = size := by
  obtain ⟨pieces, hk, hn, htake⟩ := exists_pieces h
  rw [payload_of_take htake, List.length_take, length_flatten hk hn, Nat.min_eq_left hsize]

/-- **Enough shards of the right length give a payload of the right size**, whatever their bytes. -/
theorem exists_payload_of_enough (id : Digest) (hs : s.length = g.total)
    (hn : ∀ p ∈ s.present, p.2.length = g.shardLength size)
    (hp : 0 < size → g.data ≤ s.present.length) :
    ∃ data, data.length = size ∧ g.decoded id size s = Block.ofParts id data := by
  rcases Nat.eq_zero_or_pos size with rfl | h0
  · exact ⟨[], rfl, decoded_zero id hs hn⟩
  · refine ⟨_, length_payload (fun i hi => ?_) (g.le_mul_shardLength size),
      decoded_of_enough id hs hn h0 (hp h0)⟩
    exact exists_of_fillData hs hn (hp h0) hi

end Geometry

namespace Cluster

variable {c : Cluster} {id : Digest} {size : ℕ}

/-- A size that is not agreed on is never the fault of the codec. -/
theorem sizeOf_ne_coding (id : Digest) (c : Cluster) (reason : String) :
    c.sizeOf id ≠ .error (.coding reason) := by
  intro h
  rw [sizeOf] at h
  split at h
  · simp at h
  · rcases concludeSize_error h with he | he
    · simp [Failure.isCanceled, Failure.category] at he
    · simp [Failure.Unread] at he

/-! ## Shards of the right length -/

/-- How many slots give a shard of the right length for a block of the given size. -/
def fitting (id : Digest) (size : ℕ) (c : Cluster) : ℕ :=
  (c.shards id).countP fun
    | .ok x => x.length = c.geometry.shardLength size
    | .error _ => false

theorem length_present_screen (n : ℕ) (answers : List (Outcome Bytes)) :
    (screen n answers).present.length = answers.countP fun
      | .ok x => x.length = n
      | .error _ => false := by
  rw [Stripe.length_present, screen, List.countP_map]
  refine List.countP_congr fun a _ => ?_
  cases a with
  | ok x => by_cases hx : x.length = n <;> simp [hx]
  | error e => simp

theorem length_present_stripe (c : Cluster) (id : Digest) (h0 : 0 < size) :
    ((c.askSize id).2.stripe id.key size none).present.length = c.fitting id size := by
  rw [stripe_of_pos c id h0, length_present_screen]
  rfl

theorem length_of_mem_present_stripe {key : String} {skip : Option ℕ} {p : ℕ × Bytes}
    (hp : p ∈ (c.stripe key size skip).present) : p.2.length = c.geometry.shardLength size := by
  rw [stripe] at hp
  split at hp
  · simp [present_replicate_none] at hp
  · exact (mem_present_screen.1 hp).2

/-! ## Reading -/

theorem blockOf_of_sizeOf (h : c.sizeOf id = .ok size) :
    c.blockOf id = c.geometry.decoded id size ((c.askSize id).2.stripe id.key size none) := by
  rw [blockOf, h]
  rfl

theorem blockOf_of_few (h : c.sizeOf id = .ok size)
    (hfew : 0 < size ∧ c.fitting id size < c.geometry.data) :
    c.blockOf id = .error (.shardsMissing (c.fitting id size) c.geometry.data) := by
  have hlen := length_present_stripe c id hfew.1
  rw [blockOf_of_sizeOf h, Geometry.decoded_of_few id hfew.1 (hlen.symm ▸ hfew.2), hlen]

/-- A read that has enough shards ends with the block, or with a payload of its size that is not
the block. -/
theorem blockOf_of_enough (hc : c.slots.length = c.geometry.total) (h : c.sizeOf id = .ok size)
    (henough : ¬ (0 < size ∧ c.fitting id size < c.geometry.data)) :
    (∃ b : Block, b.id = id ∧ b.size = size ∧ id.Names b.data ∧ c.blockOf id = .ok b) ∨
    ∃ data : Bytes, data.length = size ∧ ¬ id.Names data ∧ c.blockOf id =
      .error (.digestMismatch id.key (Digest.of id.algorithm data).key) := by
  have hg : (c.askSize id).2.geometry = c.geometry := rfl
  have hs : ((c.askSize id).2.stripe id.key size none).length = c.geometry.total := by
    rw [length_stripe]
    exact hc
  have hp (h0 : 0 < size) :
      c.geometry.data ≤ ((c.askSize id).2.stripe id.key size none).present.length := by
    rw [length_present_stripe c id h0]
    exact Nat.not_lt.1 fun hlt => henough ⟨h0, hlt⟩
  obtain ⟨data, hlen, hdecoded⟩ := Geometry.exists_payload_of_enough id hs
    (fun p hmem => hg ▸ length_of_mem_present_stripe hmem) hp
  rw [blockOf_of_sizeOf h, hdecoded]
  by_cases hnames : id.Names data
  · have hb : (Block.mk id.algorithm data).id = id := hnames
    exact Or.inl ⟨_, hb, hlen, hnames, Block.ofParts_eq_ok_iff.2 ⟨hb, rfl⟩⟩
  · refine Or.inr ⟨data, hlen, hnames, ?_⟩
    rw [Block.ofParts, if_neg hnames]

/-- **Every end of a read.** The size of the block is not agreed on; it is, but too few slots give a
shard of the right length; or they are enough, and what they give is the block or, with the right
size, something else. The codec itself never fails. -/
theorem get_cases (hc : c.slots.length = c.geometry.total) (id : Digest) :
    let size := ((Cluster.size .never id).run c).1
    let read := ((Cluster.get .never id).run c).1
    (∀ e, size = .error e → read = .error e) ∧
    (∀ n, size = .ok n →
      (read = .error (.shardsMissing (c.fitting id n) c.geometry.data) ↔
        0 < n ∧ c.fitting id n < c.geometry.data) ∧
      (¬ (0 < n ∧ c.fitting id n < c.geometry.data) →
        (∃ b : Block, b.id = id ∧ b.size = n ∧ id.Names b.data ∧ read = .ok b) ∨
        ∃ data : Bytes, data.length = n ∧ ¬ id.Names data ∧
          read = .error (.digestMismatch id.key (Digest.of id.algorithm data).key))) ∧
    ∀ reason, read ≠ .error (.coding reason) := by
  intro size read
  have hsize : size = c.sizeOf id := (Op.Triple.size_never id c).run_eq rfl
  have hread : read = c.blockOf id := (Op.Triple.get_never id c).run_eq rfl
  rw [hsize, hread]
  refine ⟨fun e he => by rw [blockOf, he]; rfl, fun n hn => ⟨⟨fun hfew => ?_, blockOf_of_few hn⟩,
    blockOf_of_enough hc hn⟩, fun reason hcoding => ?_⟩
  · by_contra henough
    rcases blockOf_of_enough hc hn henough with ⟨b, -, -, -, hb⟩ | ⟨data, -, -, hb⟩ <;>
      simp [hb] at hfew
  · cases hn : c.sizeOf id with
    | error e =>
      rw [blockOf, hn] at hcoding
      exact sizeOf_ne_coding id c reason (hn.trans (congrArg _ (Except.error.inj hcoding)))
    | ok n =>
      by_cases hfew : 0 < n ∧ c.fitting id n < c.geometry.data
      · simp [blockOf_of_few hn hfew] at hcoding
      · rcases blockOf_of_enough hc hn hfew with ⟨b, -, -, -, hb⟩ | ⟨data, -, -, hb⟩ <;>
          simp [hb] at hcoding

/-- Two slots agree on three bytes, but only one gives a shard of two. -/
theorem get_of_shortShards :
    let b : Block := ⟨.blake3, [1, 2, 3]⟩
    ((Cluster.get .never b.id).run (twoOfThree b.id.key [3, 0, 0, 0] [1, 2] [3] [7])).1 =
      .error (.shardsMissing 1 2) := by
  intro b
  set c := twoOfThree b.id.key [3, 0, 0, 0] [1, 2] [3] [7] with hc
  have hsize : ((Cluster.size .never b.id).run c).1 = .ok 3 := by decide +kernel
  have hfit : c.fitting b.id 3 = 1 := by
    rw [fitting, hc, shards_twoOfThree]
    decide
  have hcases := ((get_cases (c := c) rfl b.id).2.1 3 hsize).1
  rw [hfit] at hcases
  exact hcases.2 ⟨by decide, by decide⟩

end Cluster

end ErasureVault
