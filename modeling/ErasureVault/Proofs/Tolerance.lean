/-
  What a read tolerates.

  A block is read whenever enough slots report its size, more than report any other, and the first
  shards of the right length are its own (`get_of_good_answers`). What the other slots do to either
  call is not restricted: they may fail in any way and alike, break down, run out of time, or answer
  with other sizes, other lengths and other bytes.
-/
import ErasureVault.Proofs.Contents
import ErasureVault.Proofs.Recovery

namespace ErasureVault.Cluster

open Quorum

/-- **Reads tolerate every mix of faults that leaves enough good answers.** -/
theorem get_of_good_answers {c : Cluster} {b : Block} (hc : c.slots.length = c.geometry.total)
    (hk : 2 ≤ c.geometry.data) (hq : c.geometry.data ≤ c.reports b.id b.size)
    (hlt : ∀ n ≠ b.size, c.reports b.id n < c.reports b.id b.size)
    (hp : 0 < b.size → c.geometry.data ≤
      (screen (c.geometry.shardLength b.size) (c.shards b.id)).present.length)
    (hfirst : 0 < b.size → ∀ p ∈ (screen (c.geometry.shardLength b.size)
      (c.shards b.id)).present.take c.geometry.data, (c.geometry.encode b.data)[p.1]? = some p.2) :
    ((Cluster.get .never b.id).run c).1 = .ok b := by
  rw [(Op.Triple.get_never b.id c).run_eq rfl]
  exact blockOf_of_good_answers hc hk hq hlt hp hfirst

/-- A node that holds one key. -/
def holding (key : String) (record shard : Bytes) : Node :=
  .ofStore "" (.memory ⟨Table.empty.insert (Text.utf8 key) ⟨record, shard⟩, .fresh 0 0⟩)

theorem held_holding (key : String) (record shard : Bytes) :
    (holding key record shard).store.held (Text.utf8 key) = (some record, some shard) := by
  simp [holding, Node.ofStore, Store.held, Table.get?_insert]

theorem held_holding_of_ne {key : String} {record shard k : Bytes} (hk : k ≠ Text.utf8 key) :
    (holding key record shard).store.held k = (none, none) := by
  simp [holding, Node.ofStore, Store.held, Table.get?_insert, hk]

/-- Three slots, of which two hold a key; the third gives up when asked for the record, and gives
other bytes when asked for its shard. -/
def twoOfThree (key : String) (record shard₀ shard₁ garbage : Bytes) : Cluster where
  codec := .ofGeometry .twoAndOne 0
  policy := .quorum
  limit := none
  slots := [⟨"", 0⟩, ⟨"", 1⟩, ⟨"", 2⟩]
  nodes := [holding key record shard₀, holding key record shard₁, { holding key record [] with
    weather := fun _ m => ⟨0, if m = .get then .forge garbage else .refuse (.canceled "")⟩ }]
  journal := []

theorem records_twoOfThree {id : Digest} {record shard₀ shard₁ garbage : Bytes} {r : SizeRecord}
    (hr : SizeRecord.decode record = .ok r) :
    (twoOfThree id.key record shard₀ shard₁ garbage).records id =
      [.ok r, .ok r, .error (.canceled "")] := by
  simp [records, askSize, ask, called, twoOfThree, callSlots, callNode, Node.getSize,
    Node.getRecord, Node.call, holding, Node.ofStore, Disturbance.calm, Node.storedRecord,
    Node.found, Node.absent, Store.getRecord, MemoryStore.getRecord, Table.get?_insert,
    Terms.settle, Terms.cutOff, Terms.cutOff.late, Attempt.mapOutcome, Reaction.ofOutcome,
    Terms.conclude, hr]

theorem shards_twoOfThree (id : Digest) (record shard₀ shard₁ garbage : Bytes) :
    (twoOfThree id.key record shard₀ shard₁ garbage).shards id =
      [.ok shard₀, .ok shard₁, .ok garbage] := by
  simp [shards, askShards, askSize, ask, called, twoOfThree, callSlots, callNode, Node.getSize,
    Node.getRecord, Node.get, Node.call, holding, Node.ofStore, Disturbance.calm,
    Node.storedRecord, Node.storedShard, Node.found, Node.absent, Store.get, MemoryStore.get,
    Store.getRecord, MemoryStore.getRecord, Table.get?_insert, Terms.settle, Terms.cutOff,
    Terms.cutOff.late, Attempt.mapOutcome, Reaction.ofOutcome, Terms.conclude, Except.map,
    Node.tick]

/-- A block of three bytes is read although one of three slots gives up and gives other bytes. -/
theorem get_despite_garbage :
    let b : Block := ⟨.blake3, [1, 2, 3]⟩
    ((Cluster.get .never b.id).run
      (twoOfThree b.id.key [3, 0, 0, 0] [1, 2] [3, 0] [7, 7])).1 = .ok b := by
  intro b
  set c := twoOfThree b.id.key [3, 0, 0, 0] [1, 2] [3, 0] [7, 7] with hc
  have hrecords : c.records b.id = [.ok ⟨3⟩, .ok ⟨3⟩, .error (.canceled "")] :=
    records_twoOfThree (by decide)
  have hdata : c.geometry.data = 2 := rfl
  have hsize : b.size = 3 := rfl
  have hshards : screen (c.geometry.shardLength b.size) (c.shards b.id) =
      [some [1, 2], some [3, 0], some [7, 7]] := by
    rw [Geometry.shardLength, hsize, hdata, hc, shards_twoOfThree]
    decide
  have hreports (n : ℕ) : c.reports b.id n = if n = 3 then 2 else 0 := by
    rw [reports, hrecords]
    by_cases hn : n = 3
    · rw [if_pos hn, hn]
      decide
    · have hne : ¬ SizeRecord.size ⟨3⟩ = n := fun h => hn (h.symm.trans (by decide))
      simp [hn, hne]
  have hencode : c.geometry.encode b.data = [[1, 2], [3, 0], [5, 6]] := by decide +kernel
  refine get_of_good_answers rfl (by decide) ?_ (fun n hn => ?_) (fun _ => ?_) fun _ p hp => ?_
  · rw [hdata, hreports, hsize]
    decide
  · rw [hsize] at hn
    rw [hreports, hreports, hsize, if_neg hn]
    decide
  · rw [hshards, hdata]
    decide
  · rw [hshards, hdata] at hp
    rw [hencode]
    have hmem : p ∈ [(0, [1, 2]), (1, [3, 0])] := hp
    rcases List.mem_cons.1 hmem with rfl | hmem
    · rfl
    · rw [List.mem_singleton.1 hmem]
      rfl

end ErasureVault.Cluster
