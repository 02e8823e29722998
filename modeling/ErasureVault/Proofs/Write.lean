/-
  Writing a block.

  * `Cluster.askPut b r`: what the slots answer when each is given its shard of `b` with the record
    `r`; that is all a write does (`put_never`);
  * under a quorum, a write that succeeds was stored by as many slots (`concludeWrite_quorum_ok`).
-/
import ErasureVault.Cluster.Write
import ErasureVault.Proofs.Calls
import ErasureVault.Proofs.Decision

namespace ErasureVault

open Quorum

/-! ## Decisions -/

/-- The slots that stored their shard are those that vote for the write. -/
theorem support_ok_eq_countP (outcomes : List (Outcome Unit)) :
    support (.ok ()) (votes [] outcomes) = outcomes.countP Outcome.isOk := by
  rw [support_ok_votes, support]
  refine List.countP_congr fun o _ => ?_
  cases o <;> simp [Outcome.same, Outcome.isOk]

/-- **A write that succeeds under a quorum was stored by a quorum.** -/
theorem concludeWrite_quorum_ok {required : ℕ} {canceled : Bool} {outcomes : List (Outcome Unit)}
    (h : concludeWrite .quorum required canceled outcomes = .ok ()) :
    required ≤ outcomes.countP Outcome.isOk := by
  rw [concludeWrite] at h
  cases canceled with
  | true => simp at h
  | false =>
    by_contra hlt
    simp only [Bool.false_eq_true, if_false, hlt] at h
    rcases resolve_cases [] required
      (fun _ => .writeQuorum (outcomes.countP Outcome.isOk) required) outcomes with
      ⟨v, -, hq, hr⟩ | ⟨n, hr⟩
    · rw [hr] at h
      subst h
      exact hlt (support_ok_eq_countP outcomes ▸ hq)
    · simp [hr] at h

theorem Geometry.data_le_write (g : Geometry) : g.data ≤ g.thresholds.write := by
  simp only [thresholds, Thresholds.ofCounts]
  split <;> omega

/-! ## Writing to all slots -/

namespace Cluster

/-- What the slots answer when each is given its shard of a block, and the cluster after that. -/
def askPut (b : Block) (r : SizeRecord) (c : Cluster) : List (Outcome Unit) × Cluster :=
  c.ask "put" fun slot => Node.put b.id.key r.encode ((c.geometry.encode b.data).getD slot [])

end Cluster

/-- **What a caller who does not give up writes.** -/
theorem Op.Triple.put_never {b : Block} {r : SizeRecord} (hr : SizeRecord.ofSize b.size = .ok r)
    (c : Cluster) :
    Triple (· = c) (Cluster.put .never b)
      (fun _ c' => c'.Same (c.askPut b r).2 ∧
        concludeWrite c.policy c.thresholds.write false (c.askPut b r).1 = .ok ())
      (fun _ c' => c'.Same (c.askPut b r).2) := by
  unfold Cluster.put
  refine timed ?_ (fun _ _ _ h => ⟨⟨h.1.1, h.1.2, h.1.3, h.1.4, h.1.5⟩, h.2⟩)
    fun _ _ _ h => ⟨h.1, h.2, h.3, h.4, h.5⟩
  refine bind (ofOutcome (Q := fun r' c' => r' = r ∧ c' = c) (fun r' c' hc h => ?_)
    fun e c' _ h => ?_) fun r' => of_each ?_
  · exact ⟨Except.ok.inj (h.symm.trans hr), hc⟩
  · rw [hr] at h
    simp at h
  rintro _ ⟨rfl, rfl⟩
  refine cluster.bind fun c₀ => of_each ?_
  rintro _ ⟨rfl, rfl⟩
  set coded : Cluster := { c₀ with codec := (c₀.codec.encode b.data).2 }
  refine bind (modifyCluster (Q := fun _ c' => c' = coded) (by rintro _ rfl; rfl)) fun _ => ?_
  refine (callAll_never "put" _ coded).bind fun outcomes => of_each ?_
  rintro _ ⟨rfl, rfl⟩
  refine (isCanceled .never).bind fun canceled => of_each ?_
  rintro _ ⟨hcanceled, rfl⟩
  rw [hcanceled rfl]
  refine ofOutcome (fun u c' hc h => ?_) fun e c' hc _ => ?_
  · exact ⟨hc ▸ ⟨rfl, rfl, rfl, rfl, rfl⟩, h⟩
  · exact hc ▸ ⟨rfl, rfl, rfl, rfl, rfl⟩

end ErasureVault
