/-
  What a writer is told.

  * `failedAlike e answers` is how many slots failed with `e`, any cancellation taken for that of the
    caller. `WriteVerdict policy required answers told`: given what the slots answered, a writer is
    told of success exactly if enough slots stored their shard; else of a failure that enough slots
    share, or, if there is none, how many slots stored theirs;
  * this is what is concluded from any answers (`writeVerdict_concludeWrite`), and all slots together
    are always enough (`write_le_total`). Hence it is what a writer is told who has not given up by
    the time the last slot has answered (`put_verdict`).
-/
import ErasureVault.Proofs.Answers
import ErasureVault.Proofs.Decision
import ErasureVault.Proofs.Write

namespace ErasureVault

open Quorum

/-! ## Verdicts -/

/-- How many slots failed with `e`, any cancellation taken for that of the caller. -/
def failedAlike (e : Failure) (answers : List (Outcome Unit)) : ℕ :=
  support (.error e) (answers.map Outcome.canonical)

/-- What a writer may be told, given what the slots answered and how many of them must have stored
their shard under a quorum. -/
def WriteVerdict (policy : WritePolicy) (required : ℕ) (answers : List (Outcome Unit))
    (told : Outcome Unit) : Prop :=
  let stored := answers.countP Outcome.isOk
  match policy with
  | .quorum =>
    (told = .ok () ↔ required ≤ stored) ∧
    (stored < required →
      (∃ e, told = .error e ∧ required ≤ failedAlike e answers) ∨
      (∀ e, failedAlike e answers < required) ∧ told = .error (.writeQuorum stored required))
  | .bestEffort =>
    (told = .ok () ↔ 0 < stored) ∧ (stored = 0 → told = .error (.writeQuorum 0 1))

theorem failedAlike_eq_support (e : Failure) (answers : List (Outcome Unit)) :
    failedAlike e answers = support (.error e) (votes [] answers) := by
  rw [votes_nil, failedAlike]

/-- If too few slots stored their shard, they cannot outvote a failure that enough slots share. -/
theorem resolve_of_few {required : ℕ} {answers : List (Outcome Unit)} (fallback : ℕ → Failure)
    (h0 : 0 < required) (hfew : answers.countP Outcome.isOk < required) :
    (∃ e, resolve false [] required fallback answers = .error e ∧
      required ≤ failedAlike e answers) ∨
    (∀ e, failedAlike e answers < required) ∧
      resolve false [] required fallback answers =
        .error (fallback (topSupport (votes [] answers))) := by
  rcases Nat.lt_or_ge (topSupport (votes [] answers)) required with hlt | hle
  · refine Or.inr ⟨fun e => ?_, fallsBack_of_lt hlt fallback⟩
    rw [failedAlike_eq_support]
    exact Nat.lt_of_le_of_lt (support_le_topSupport _ _) hlt
  · obtain ⟨v, hv⟩ := exists_leads (Nat.lt_of_lt_of_le h0 hle)
    cases v with
    | ok u =>
      have hstored := hv.support_eq
      rw [support_ok_eq_countP] at hstored
      omega
    | error e =>
      refine Or.inl ⟨e, hv.decides hle fallback, ?_⟩
      rw [failedAlike_eq_support, hv.support_eq]
      exact hle

/-- **What is concluded from the answers of the slots**, whatever they are. -/
theorem writeVerdict_concludeWrite (policy : WritePolicy) {required : ℕ} (h0 : 0 < required)
    (answers : List (Outcome Unit)) :
    WriteVerdict policy required answers (concludeWrite policy required false answers) := by
  set stored := answers.countP Outcome.isOk with hstored
  cases policy with
  | quorum =>
    have hconclude : concludeWrite .quorum required false answers =
        if required ≤ stored then .ok ()
        else resolve false [] required (fun _ => .writeQuorum stored required) answers := rfl
    rw [hconclude, WriteVerdict]
    rcases Nat.lt_or_ge stored required with hfew | hmany
    · rw [if_neg (Nat.not_le.2 hfew)]
      have hcases := resolve_of_few (fun _ => .writeQuorum stored required) h0 hfew
      refine ⟨iff_of_false (fun h => ?_) (Nat.not_le.2 hfew), fun _ => hcases⟩
      rcases hcases with ⟨e, he, -⟩ | ⟨-, he⟩ <;> simp [h] at he
    · rw [if_pos hmany]
      exact ⟨iff_of_true rfl hmany, fun hfew => absurd hmany (Nat.not_le.2 hfew)⟩
  | bestEffort =>
    have hconclude : concludeWrite .bestEffort required false answers =
        if 0 < stored then .ok () else .error (.writeQuorum stored 1) := rfl
    rw [hconclude, WriteVerdict]
    rcases Nat.eq_zero_or_pos stored with h | h
    · simp [← hstored, h]
    · simp [← hstored, h, Nat.ne_of_gt h]

/-! ## Writing -/

/-- There are enough slots for a quorum. -/
theorem Geometry.write_le_total (g : Geometry) : g.thresholds.write ≤ g.total := by
  have := g.parity_pos
  simp only [thresholds, Thresholds.ofCounts, total]
  split <;> omega

namespace Cluster

/-- What becomes of the calls of all slots when each is given its shard of a block. -/
def putCalls (token : Token) (b : Block) (c : Cluster) : List (Settled Unit) :=
  (c.called ⟨"put", token, c.limit, 0⟩ fun slot =>
    Node.put b.id.key b.record.encode ((c.geometry.encode b.data).getD slot [])).1

/-- A write ends with what is concluded when the last slot has answered. -/
theorem put_eq_concludeWrite (token : Token) {b : Block} (hb : b.Fits) (c : Cluster) :
    ((Cluster.put token b).run c).1 =
      concludeWrite c.policy c.thresholds.write (token.isCanceled (latest (c.putCalls token b)))
        ((c.putCalls token b).map Settled.outcome) := by
  have hrecord : SizeRecord.ofSize b.size = .ok b.record := hb.ofSize
  unfold Cluster.put putBy
  rw [hrecord, ← Nat.zero_add (latest (c.putCalls token b))]
  rfl

/-- **What a writer is told.** All slots together are enough for a quorum. Whatever the slots answer,
what is concluded from it is a verdict on their answers, and so is what a writer is told who has not
given up by the time the last slot has answered. -/
theorem put_verdict {c : Cluster} (hc : c.slots.length = c.geometry.total) :
    let required := c.thresholds.write
    required ≤ c.geometry.total ∧
    (∀ policy answers,
      WriteVerdict policy required answers (concludeWrite policy required false answers)) ∧
    ∀ (token : Token) (b : Block), b.Fits →
      let calls := c.putCalls token b
      calls.length = c.geometry.total ∧
      (token.isCanceled (latest calls) = false →
        WriteVerdict c.policy required (calls.map Settled.outcome)
          ((Cluster.put token b).run c).1) := by
  intro required
  have h0 : 0 < required := c.geometry.data_pos.trans_le c.geometry.data_le_write
  refine ⟨c.geometry.write_le_total, fun policy => writeVerdict_concludeWrite policy h0,
    fun token b hb => ?_⟩
  intro calls
  refine ⟨length_called.trans hc, fun hlive => ?_⟩
  rw [put_eq_concludeWrite token hb, hlive]
  exact writeVerdict_concludeWrite c.policy h0 _

/-- Four slots, of which the third stores what it is given; the others give up after three
milliseconds, each in its own words. -/
def reluctantSlots : Cluster where
  codec := .ofGeometry .twoAndTwo 0
  policy := .quorum
  limit := none
  slots := [⟨"", 0⟩, ⟨"", 1⟩, ⟨"", 2⟩, ⟨"", 3⟩]
  nodes := [reluctant "first", reluctant "second", .ofStore "" (.memory (.empty 0)),
    reluctant "fourth"]
  journal := []
where
  reluctant (what : String) : Node :=
    ⟨"", .memory (.empty 0), fun _ _ => ⟨3, .refuse (.canceled what)⟩, 0⟩

/-- Three cancellations make a quorum of four slots, although the caller would have waited. -/
theorem put_of_reluctantSlots :
    let b : Block := ⟨.blake3, [1, 2, 3]⟩
    let calls := reluctantSlots.putCalls (.after 4) b
    b.Fits ∧ Token.isCanceled (.after 4) (latest calls) = false ∧
      ∃ e, ((Cluster.put (.after 4) b).run reluctantSlots).1 = .error e ∧
        3 ≤ failedAlike e (calls.map Settled.outcome) := by
  intro b calls
  have hb : b.Fits := by decide
  have hlive : Token.isCanceled (.after 4) (latest calls) = false := by decide +kernel
  have halike : failedAlike .canceledByCaller (calls.map Settled.outcome) = 3 := by decide +kernel
  have hfew : (calls.map Settled.outcome).countP Outcome.isOk < 3 := by decide +kernel
  have hverdict := ((put_verdict (c := reluctantSlots) rfl).2.2 (.after 4) b hb).2 hlive
  refine ⟨hb, hlive, (hverdict.2 hfew).resolve_right ?_⟩
  rintro ⟨hnone, -⟩
  exact Nat.lt_irrefl 3 (halike ▸ hnone .canceledByCaller)

end Cluster

end ErasureVault
