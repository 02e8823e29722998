/-
  What the slots decide together.

  * `Leads vs v n`: of the votes `vs`, `v` is cast `n` times, and none more often; of those cast as
    often it is the first success, or the first of all if none is a success. The plurality is the
    vote that leads (`plurality_iff_leads`);
  * every decision has the support of a quorum, or is a fallback (`resolve_cases`), and a vote with
    strictly more support than any other is the decision (`resolve_of_strict_majority`);
  * `Decides ignored quorum outcomes v` and `FallsBack ignored quorum outcomes n`: the outcomes decide
    for the vote `v`, or for the failure of `n` agreeing slots. They fall back if no vote reaches the
    quorum, for as many slots as cast the most frequent one (`topSupport`), and else they decide for
    one that does. If the quorum is a majority, their order does not matter (`resolve_sound`).
-/
import ErasureVault.Proofs.Quorum
import Mathlib.Data.List.Find

namespace ErasureVault

namespace Quorum

open Outcome

variable {α : Type} [BEq α] [LawfulBEq α] {ignored : List Category} {quorum n : ℕ}
  {outcomes vs : List (Outcome α)} {v w : Outcome α}

/-! ## The vote that leads -/

/-- Of the votes, `v` is cast `n` times, and none more often; of those cast as often it is the first
success, or the first of all if none is a success. -/
structure Leads (vs : List (Outcome α)) (v : Outcome α) (n : ℕ) : Prop where
  support_eq : support v vs = n
  support_le : ∀ w, support w vs ≤ n
  /-- A success goes before all failures that are cast as often. -/
  isOk : ∀ w ∈ vs, support w vs = n → w.isOk → v.isOk
  /-- Two successes, or two failures, go in the order in which they were first cast. -/
  first : (vs.find? fun w => w.isOk == v.isOk && support w vs == n) = some v

omit [LawfulBEq α] in
theorem Leads.mem (h : Leads vs v n) : v ∈ vs :=
  List.mem_of_find?_eq_some h.first

omit [LawfulBEq α] in
/-- Only one vote leads. -/
theorem Leads.unique {m : ℕ} (h : Leads vs v n) (h' : Leads vs w m) : v = w ∧ n = m := by
  have hnm : n = m := Nat.le_antisymm (h.support_eq ▸ h'.support_le v)
    (h'.support_eq ▸ h.support_le w)
  subst hnm
  have hok : v.isOk = w.isOk := Bool.eq_iff_iff.2
    ⟨h'.isOk v h.mem h.support_eq, h.isOk w h'.mem h'.support_eq⟩
  have hfirst := h.first
  rw [hok, h'.first] at hfirst
  exact ⟨(Option.some.inj hfirst).symm, rfl⟩

theorem leads_of_plurality (h : plurality ignored outcomes = some (v, n)) :
    Leads (votes ignored outcomes) v n := by
  obtain ⟨-, hn, hle⟩ := plurality_eq_some h
  have hfind := plurality_eq_find h
  set vs := votes ignored outcomes with hvs
  cases hok : vs.find? fun w => w.isOk && support w vs == n with
  | some w =>
    simp only [hok, Option.some_or, Option.some.injEq] at hfind
    subst hfind
    have hv := List.find?_some hok
    rw [Bool.and_eq_true] at hv
    refine ⟨hn.symm, hle, fun _ _ _ _ => hv.1, ?_⟩
    simp only [hv.1, beq_true]
    exact hok
  | none =>
    simp only [hok, Option.none_or] at hfind
    have hfailure (w) (hw : w ∈ vs) (hc : support w vs = n) : w.isOk = false := by
      simpa [hc] using List.find?_eq_none.1 hok w hw
    have hv : v.isOk = false := hfailure v (List.mem_of_find?_eq_some hfind.symm) hn.symm
    refine ⟨hn.symm, hle, fun w hw hc h => ?_, (List.find?_congr fun w hw => ?_).trans hfind.symm⟩
    · rw [hfailure w hw hc] at h
      exact absurd h Bool.false_ne_true
    · by_cases hc : support w vs = n
      · simp [hc, hv, hfailure w hw hc]
      · simp [hc]

theorem plurality_of_leads (h : Leads (votes ignored outcomes) v n) :
    plurality ignored outcomes = some (v, n) := by
  cases hp : plurality ignored outcomes with
  | none =>
    have hv := h.mem
    rw [plurality_eq_none_iff.1 hp] at hv
    exact absurd hv List.not_mem_nil
  | some best =>
    obtain ⟨hv, hn⟩ := (leads_of_plurality hp).unique h
    rw [← hv, ← hn]

/-- **The plurality is the vote that leads.** There is one unless all outcomes are ignored. -/
theorem plurality_iff_leads (ignored : List Category) (outcomes : List (Outcome α)) :
    let vs := (outcomes.filter fun o => !o.isIgnored ignored).map canonical
    (plurality ignored outcomes = none ↔ vs = []) ∧
    ∀ v n, plurality ignored outcomes = some (v, n) ↔ Leads vs v n := by
  rw [← votes_eq_map_canonical ignored outcomes]
  exact ⟨plurality_eq_none_iff, fun v n => ⟨leads_of_plurality, plurality_of_leads⟩⟩

/-- Two cancellations are one vote; of the three votes that are cast twice, the first success
leads. -/
theorem plurality_of_threeTied :
    let outcomes : List (Outcome ℕ) :=
      [.error (.canceled "slot 0"), .error (.keyUnknown "key"), .ok 7, .ok 8,
        .error (.canceled "slot 4"), .ok 8, .error (.keyUnknown "key"), .ok 7,
        .error (.keyUnknown "key")]
    plurality [.missing] outcomes = some (.ok 7, 2) ∧
      Leads ((outcomes.filter fun o => !o.isIgnored [.missing]).map canonical) (.ok 7) 2 := by
  intro outcomes
  have hp : plurality [.missing] outcomes = some (.ok 7, 2) := by decide
  exact ⟨hp, ((plurality_iff_leads [.missing] outcomes).2 _ _).1 hp⟩

/-! ## Majorities -/

/-- How often the most frequent of the votes is cast. -/
def topSupport (vs : List (Outcome α)) : ℕ :=
  ((vs.map fun v => support v vs).max?).getD 0

theorem support_le_topSupport (v : Outcome α) (vs : List (Outcome α)) :
    support v vs ≤ topSupport vs := by
  rcases Nat.eq_zero_or_pos (support v vs) with h0 | hpos
  · omega
  · have hmem : support v vs ∈ vs.map fun v => support v vs :=
      List.mem_map_of_mem (support_pos_iff.1 hpos)
    cases hmax : (vs.map fun v => support v vs).max? with
    | none =>
      rw [List.max?_eq_none_iff] at hmax
      simp [hmax] at hmem
    | some m =>
      rw [topSupport, hmax, Option.getD_some]
      exact (List.max?_eq_some_iff.1 hmax).2 _ hmem

omit [LawfulBEq α] in
theorem topSupport_le (h : ∀ v, support v vs ≤ n) : topSupport vs ≤ n := by
  rw [topSupport]
  cases hmax : (vs.map fun v => support v vs).max? with
  | none => exact Nat.zero_le n
  | some m =>
    obtain ⟨v, -, rfl⟩ := List.mem_map.1 (List.max?_eq_some_iff.1 hmax).1
    exact h v

theorem Leads.eq_topSupport (h : Leads vs v n) : n = topSupport vs :=
  Nat.le_antisymm (h.support_eq ▸ support_le_topSupport v vs) (topSupport_le h.support_le)

/-- Some vote leads, if any is cast. -/
theorem exists_leads (h : 0 < topSupport (votes ignored outcomes)) :
    ∃ v, Leads (votes ignored outcomes) v (topSupport (votes ignored outcomes)) := by
  cases hp : plurality ignored outcomes with
  | none =>
    rw [plurality_eq_none_iff.1 hp] at h
    exact absurd h (Nat.lt_irrefl 0)
  | some best =>
    have hbest := leads_of_plurality (v := best.1) (n := best.2) hp
    exact ⟨best.1, hbest.eq_topSupport ▸ hbest⟩

/-- The most frequent vote is cast as often in any order. -/
theorem topSupport_perm {vs' : List (Outcome α)} (h : vs'.Perm vs) :
    topSupport vs' = topSupport vs := by
  have hsupport (v : Outcome α) : support v vs' = support v vs := h.countP_eq _
  refine Nat.le_antisymm (topSupport_le fun v => ?_) (topSupport_le fun v => ?_)
  · exact hsupport v ▸ support_le_topSupport v vs
  · exact hsupport v ▸ support_le_topSupport v vs'

/-- Different votes are cast by different slots. -/
theorem support_add_support_le (h : v ≠ w) : support v vs + support w vs ≤ vs.length := by
  have hother : support w vs ≤ vs.countP fun u => !v.same u := by
    refine List.countP_mono_left fun u _ hu => ?_
    have hne : ¬ v.same u = true := fun hv => h ((same_iff.1 hv).trans (same_iff.1 hu).symm)
    simpa using hne
  calc support v vs + support w vs
      ≤ vs.countP v.same + vs.countP fun u => !v.same u := Nat.add_le_add_left hother _
    _ = vs.length := by
      rw [List.length_eq_countP_add_countP v.same]
      simp

/-- No two votes have a majority. -/
theorem eq_of_majority (hlen : vs.length < 2 * quorum) (hv : quorum ≤ support v vs)
    (hw : quorum ≤ support w vs) : v = w := by
  by_contra hne
  have hle : support v vs + support w vs ≤ vs.length := support_add_support_le hne
  omega

/-! ## Decisions -/

/-- The outcomes decide for `v`, whatever the fallback. -/
def Decides (ignored : List Category) (quorum : ℕ) (outcomes : List (Outcome α)) (v : Outcome α) :
    Prop :=
  ∀ fallback, resolve false ignored quorum fallback outcomes = v

/-- The outcomes decide for the failure of `n` agreeing slots, whatever that is. -/
def FallsBack (ignored : List Category) (quorum : ℕ) (outcomes : List (Outcome α)) (n : ℕ) : Prop :=
  ∀ fallback, resolve false ignored quorum fallback outcomes = .error (fallback n)

omit [LawfulBEq α] in
theorem FallsBack.unique {m : ℕ} (h : FallsBack ignored quorum outcomes n)
    (h' : FallsBack ignored quorum outcomes m) : n = m := by
  simpa using (h fun n => .writeQuorum n 0).symm.trans (h' _)

omit [LawfulBEq α] in
/-- What does not depend on the fallback is not the fallback. -/
theorem FallsBack.not_decides (h : FallsBack ignored quorum outcomes n) :
    ¬ Decides ignored quorum outcomes v := by
  intro hv
  have hread := (h fun n => .readQuorum n 0 0).symm.trans (hv _)
  have hwrite := (h fun n => .writeQuorum n 0).symm.trans (hv _)
  simpa using hread.trans hwrite.symm

/-- A vote that reaches the quorum and leads is decided for. -/
theorem Leads.decides (h : Leads (votes ignored outcomes) v n) (hq : quorum ≤ n) :
    Decides ignored quorum outcomes v := by
  intro fallback
  rw [resolve, if_neg Bool.false_ne_true, plurality_of_leads h]
  exact if_pos hq

theorem fallsBack_of_lt (hq : topSupport (votes ignored outcomes) < quorum) :
    FallsBack ignored quorum outcomes (topSupport (votes ignored outcomes)) := by
  intro fallback
  rw [resolve, if_neg Bool.false_ne_true]
  cases hp : plurality ignored outcomes with
  | none =>
    rw [plurality_eq_none_iff.1 hp]
    rfl
  | some best =>
    obtain ⟨v, n⟩ := best
    have hn := (leads_of_plurality hp).eq_topSupport
    rw [← hn] at hq ⊢
    exact if_neg (Nat.not_le.2 hq)

/-- **A vote with strictly more support than any other is the decision**, if it reaches the
quorum. -/
theorem resolve_of_strict_majority {fallback : ℕ → Failure}
    (hq : quorum ≤ support v (votes ignored outcomes)) (hv : v ∈ votes ignored outcomes)
    (hlt : ∀ w ≠ v, support w (votes ignored outcomes) < support v (votes ignored outcomes)) :
    resolve false ignored quorum fallback outcomes = v := by
  have hle := support_le_topSupport v (votes ignored outcomes)
  obtain ⟨w, hw⟩ := exists_leads (Nat.lt_of_lt_of_le (support_pos_iff.2 hv) hle)
  have hwv : w = v := by
    by_contra hne
    have := hlt w hne
    have := hw.support_eq
    omega
  exact hwv ▸ hw.decides (hq.trans hle) fallback

/-- A decision is a vote with the support of a quorum, or a fallback. -/
theorem resolve_cases (ignored : List Category) (quorum : ℕ) (fallback : ℕ → Failure)
    (outcomes : List (Outcome α)) :
    (∃ v ∈ votes ignored outcomes, quorum ≤ support v (votes ignored outcomes) ∧
      resolve false ignored quorum fallback outcomes = v) ∨
    ∃ n, resolve false ignored quorum fallback outcomes = .error (fallback n) := by
  rw [resolve, if_neg Bool.false_ne_true]
  cases hp : plurality ignored outcomes with
  | none => exact Or.inr ⟨0, rfl⟩
  | some best =>
    obtain ⟨v, n⟩ := best
    obtain ⟨hv, hn, -⟩ := plurality_eq_some hp
    by_cases hq : quorum ≤ n
    · exact Or.inl ⟨v, hv, hn ▸ hq, if_pos hq⟩
    · exact Or.inr ⟨n, if_neg hq⟩

/-- **A majority decides in any order.** -/
theorem resolve_perm {outcomes' : List (Outcome α)} (h0 : 0 < quorum) (h : outcomes'.Perm outcomes)
    (hlen : (votes ignored outcomes).length < 2 * quorum) (fallback : ℕ → Failure) :
    resolve false ignored quorum fallback outcomes' =
      resolve false ignored quorum fallback outcomes := by
  have hvotes : (votes ignored outcomes').Perm (votes ignored outcomes) := h.filterMap _
  have htop := topSupport_perm hvotes
  rcases Nat.lt_or_ge (topSupport (votes ignored outcomes)) quorum with hq | hq
  · rw [fallsBack_of_lt hq, fallsBack_of_lt (htop ▸ hq), htop]
  · have hpos := Nat.lt_of_lt_of_le h0 hq
    obtain ⟨v, hv⟩ := exists_leads hpos
    obtain ⟨w, hw⟩ := exists_leads (htop.symm ▸ hpos)
    have hw' : support w (votes ignored outcomes) = topSupport (votes ignored outcomes) := by
      rw [← htop, ← hw.support_eq]
      exact (hvotes.countP_eq _).symm
    have hvw : w = v := eq_of_majority hlen (hw'.symm ▸ hq) (hv.support_eq.symm ▸ hq)
    rw [hv.decides hq, hw.decides (htop ▸ hq), hvw]

/-- **What is decided on the outcomes of all slots.** A success that is decided for was given by a
quorum of the slots, and so was any other vote; no vote that reaches the quorum is refused. If none
does, the fallback is told how often the most frequent one was cast, if any was. If the quorum is a
majority of the votes, the order of the outcomes does not matter. -/
theorem resolve_sound (hq : 1 ≤ quorum) (ignored : List Category) (outcomes : List (Outcome α)) :
    let vs := (outcomes.filter fun o => !o.isIgnored ignored).map canonical
    (∀ fallback a, resolve false ignored quorum fallback outcomes = .ok a →
      quorum ≤ support (.ok a) outcomes) ∧
    (∀ v, Decides ignored quorum outcomes v → quorum ≤ support v vs) ∧
    (∀ v, quorum ≤ support v vs → ∃ w, Decides ignored quorum outcomes w) ∧
    (∀ n, FallsBack ignored quorum outcomes n ↔ n = topSupport vs ∧ n < quorum) ∧
    ∀ outcomes', outcomes'.Perm outcomes → vs.length < 2 * quorum → ∀ fallback,
      resolve false ignored quorum fallback outcomes' =
        resolve false ignored quorum fallback outcomes := by
  rw [← votes_eq_map_canonical ignored outcomes]
  intro vs
  have hdecides (hle : quorum ≤ topSupport vs) :
      ∃ v, Decides ignored quorum outcomes v ∧ quorum ≤ support v vs := by
    obtain ⟨v, hv⟩ := exists_leads (Nat.lt_of_lt_of_le hq hle)
    exact ⟨v, hv.decides hle, hv.support_eq.symm ▸ hle⟩
  have hfalls (hlt : topSupport vs < quorum) : FallsBack ignored quorum outcomes (topSupport vs) :=
    fallsBack_of_lt hlt
  refine ⟨fun fallback a ha => ?_, fun v hv => ?_, fun v hv => ?_, fun n => ⟨fun hn => ?_, ?_⟩,
    fun outcomes' h hlen fallback => resolve_perm hq h hlen fallback⟩
  · rcases Nat.lt_or_ge (topSupport vs) quorum with hlt | hle
    · rw [hfalls hlt fallback] at ha
      simp at ha
    · obtain ⟨v, hv, hsupport⟩ := hdecides hle
      rw [hv fallback] at ha
      rwa [ha, support_ok_votes] at hsupport
  · rcases Nat.lt_or_ge (topSupport vs) quorum with hlt | hle
    · exact absurd hv (hfalls hlt).not_decides
    · obtain ⟨w, hw, hsupport⟩ := hdecides hle
      obtain rfl : w = v := (hw fun _ => .canceledByCaller).symm.trans (hv _)
      exact hsupport
  · obtain ⟨w, hw, -⟩ := hdecides (hv.trans (support_le_topSupport v vs))
    exact ⟨w, hw⟩
  · rcases Nat.lt_or_ge (topSupport vs) quorum with hlt | hle
    · obtain rfl := hn.unique (hfalls hlt)
      exact ⟨rfl, hlt⟩
    · obtain ⟨v, hv, -⟩ := hdecides hle
      exact absurd hv hn.not_decides
  · rintro ⟨rfl, hlt⟩
    exact hfalls hlt

/-- Two of three votes are cancellations, in either order. -/
theorem resolve_of_reversed :
    let outcomes : List (Outcome ℕ) :=
      [.error (.canceled "slot 0"), .ok 7, .error (.keyUnknown "key"), .error (.canceled "slot 3")]
    ((outcomes.filter fun o => !o.isIgnored [.missing]).map canonical).length < 2 * 2 ∧
      resolve false [.missing] 2 (fun n => .readQuorum n 2 0) outcomes.reverse =
        .error .canceledByCaller := by
  intro outcomes
  have hlen : ((outcomes.filter fun o => !o.isIgnored [.missing]).map canonical).length < 2 * 2 := by
    decide
  obtain ⟨-, -, -, -, horder⟩ := resolve_sound (by decide : 1 ≤ 2) [.missing] outcomes
  refine ⟨hlen, ?_⟩
  rw [horder _ outcomes.reverse_perm hlen]
  decide

end Quorum

end ErasureVault
