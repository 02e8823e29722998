/-
  Quorums, counted.

  * the votes are the outcomes that are not ignored, all cancellations taken for one
    (`votes_eq_map_canonical`);
  * `support v vs` is how many of the votes `vs` are `v`, and `firsts vs` are the votes that were
    cast, each once, in the order of their first appearance; counting votes groups them so
    (`countVotes_eq`);
  * the vote cast most often has the greatest support (`plurality_eq_some`), and is the first of
    those, a success before a failure (`plurality_eq_find`).
-/
import ErasureVault.Quorum
import Mathlib.Data.List.Induction
import Mathlib.Data.List.Nodup

namespace ErasureVault

section
variable {α : Type}

/-! ## Votes -/

namespace Outcome

/-- Whether the outcome is a failure of one of the given classes. -/
def isIgnored (ignored : List Category) : Outcome α → Bool
  | .ok _ => false
  | .error e => e.category ∈ ignored

/-- The outcome, with any cancellation taken for that of the caller. -/
def canonical : Outcome α → Outcome α
  | .ok a => .ok a
  | .error e => .error (if e.isCanceled then .canceledByCaller else e)

theorem vote?_eq (ignored : List Category) (o : Outcome α) :
    o.vote? ignored = if o.isIgnored ignored then none else some o.canonical := by
  cases o with
  | ok a => rfl
  | error e =>
    by_cases h : e.category ∈ ignored <;> by_cases hc : e.isCanceled <;>
      simp [vote?, isIgnored, canonical, h, hc]

end Outcome

/-- **The votes are the outcomes that are not ignored**, in their order, all cancellations taken for
one. -/
theorem Quorum.votes_eq_map_canonical (ignored : List Category) (outcomes : List (Outcome α)) :
    votes ignored outcomes =
      (outcomes.filter fun o => !o.isIgnored ignored).map Outcome.canonical := by
  have hvote : (Outcome.vote? ignored : Outcome α → Option (Outcome α)) = fun o =>
      (Option.guard (fun o => !o.isIgnored ignored) o).map Outcome.canonical := by
    funext o
    rw [Outcome.vote?_eq]
    cases h : o.isIgnored ignored <;> simp [Option.guard, h]
  rw [votes, hvote, ← List.map_filterMap, List.filterMap_eq_filter]

/-- If nothing is ignored, every outcome is a vote. -/
theorem Quorum.votes_nil (outcomes : List (Outcome α)) :
    votes [] outcomes = outcomes.map Outcome.canonical := by
  have hall : (outcomes.filter fun o => !o.isIgnored []) = outcomes :=
    List.filter_eq_self.2 fun o _ => by cases o <;> rfl
  rw [votes_eq_map_canonical, hall]

end

variable {α : Type} [BEq α] [LawfulBEq α]

namespace Outcome

@[simp] theorem same_self (x : Outcome α) : x.same x = true :=
  same_iff.2 rfl

end Outcome

namespace Quorum

open Outcome

/-! ## Groups of votes -/

/-- How many of the votes are `v`. -/
def support (v : Outcome α) (vs : List (Outcome α)) : ℕ :=
  vs.countP v.same

/-- The votes, each once, in the order in which they were first cast. -/
def firsts (vs : List (Outcome α)) : List (Outcome α) :=
  vs.foldl (fun ds v => if ds.any v.same then ds else ds ++ [v]) []

theorem any_same_iff {v : Outcome α} {ds : List (Outcome α)} : ds.any v.same ↔ v ∈ ds := by
  simp [List.any_eq_true, same_iff]

theorem support_pos_iff {v : Outcome α} {vs : List (Outcome α)} : 0 < support v vs ↔ v ∈ vs := by
  simp [support, List.countP_pos_iff, same_iff]

omit [LawfulBEq α] in
/-- Successes are never ignored. -/
theorem support_ok_votes (ignored : List Category) (outcomes : List (Outcome α)) (a : α) :
    support (.ok a) (votes ignored outcomes) = support (.ok a) outcomes := by
  rw [support, votes, List.countP_filterMap, support]
  refine List.countP_congr fun o _ => ?_
  rw [vote?_eq]
  cases o with
  | ok b => simp [isIgnored, canonical]
  | error e => by_cases h : e.category ∈ ignored <;> simp [isIgnored, canonical, same, h]

omit [LawfulBEq α] in
theorem support_append_singleton (v w : Outcome α) (vs : List (Outcome α)) :
    support v (vs ++ [w]) = support v vs + if v.same w then 1 else 0 := by
  simp [support, List.countP_append, List.countP_singleton]

omit [LawfulBEq α] in
theorem firsts_append_singleton (vs : List (Outcome α)) (v : Outcome α) :
    firsts (vs ++ [v]) = if (firsts vs).any v.same then firsts vs else firsts vs ++ [v] := by
  simp [firsts]

theorem mem_firsts {v : Outcome α} {vs : List (Outcome α)} : v ∈ firsts vs ↔ v ∈ vs := by
  induction vs using List.reverseRecOn with
  | nil => rfl
  | append_singleton vs w ih =>
    rw [firsts_append_singleton]
    split
    · next h =>
      rw [ih, List.mem_append, List.mem_singleton]
      constructor
      · exact Or.inl
      · rintro (h' | rfl)
        · exact h'
        · exact ih.1 (any_same_iff.1 h)
    · rw [List.mem_append, List.mem_append, ih]

theorem nodup_firsts (vs : List (Outcome α)) : (firsts vs).Nodup := by
  induction vs using List.reverseRecOn with
  | nil => exact List.nodup_nil
  | append_singleton vs w ih =>
    rw [firsts_append_singleton]
    split
    · exact ih
    · next h =>
      rw [any_same_iff] at h
      refine List.nodup_append.2 ⟨ih, List.nodup_singleton w, ?_⟩
      rintro a ha b hb rfl
      exact h (List.mem_singleton.1 hb ▸ ha)

/-- A vote that was cast before joins its group. -/
theorem addVote_of_mem {v : Outcome α} {ds : List (Outcome α)} (hd : ds.Nodup) (hv : v ∈ ds)
    (f : Outcome α → ℕ) :
    addVote v (ds.map fun w => (w, f w)) =
      ds.map fun w => (w, f w + if w.same v then 1 else 0) := by
  induction ds with
  | nil => simp at hv
  | cons d ds ih =>
    obtain ⟨hnot, hd⟩ := List.nodup_cons.1 hd
    rw [List.map_cons, addVote, List.map_cons]
    by_cases h : d = v
    · subst h
      rw [if_pos (same_self d), if_pos (same_self d)]
      refine congrArg _ (List.map_congr_left fun w hw => ?_)
      have hne : ¬ w.same d = true := fun h => hnot (same_iff.1 h ▸ hw)
      rw [if_neg hne, Nat.add_zero]
    · have hne : ¬ d.same v = true := fun h' => h (same_iff.1 h')
      rw [if_neg hne, if_neg hne, Nat.add_zero,
        ih hd ((List.mem_cons.1 hv).resolve_left (Ne.symm h))]

/-- A vote that was not cast before begins a group. -/
theorem addVote_of_not_mem {v : Outcome α} {ds : List (Outcome α)} (hv : v ∉ ds)
    (f : Outcome α → ℕ) :
    addVote v (ds.map fun w => (w, f w)) = (ds.map fun w => (w, f w)) ++ [(v, 1)] := by
  induction ds with
  | nil => rfl
  | cons d ds ih =>
    rw [List.mem_cons, not_or] at hv
    have hne : ¬ d.same v = true := fun h => hv.1 (same_iff.1 h).symm
    rw [List.map_cons, addVote, if_neg hne, ih hv.2]
    rfl

/-- **Votes are counted in groups, in the order of their first appearance.** -/
theorem countVotes_eq (vs : List (Outcome α)) :
    countVotes vs = (firsts vs).map fun v => (v, support v vs) := by
  induction vs using List.reverseRecOn with
  | nil => rfl
  | append_singleton vs v ih =>
    have hstep : countVotes (vs ++ [v]) = addVote v (countVotes vs) := by simp [countVotes]
    rw [hstep, ih, firsts_append_singleton]
    by_cases hv : v ∈ firsts vs
    · rw [if_pos (any_same_iff.2 hv), addVote_of_mem (nodup_firsts vs) hv]
      simp only [support_append_singleton]
    · rw [if_neg (mt any_same_iff.1 hv), addVote_of_not_mem hv, List.map_append]
      have hzero : support v vs = 0 :=
        Nat.eq_zero_of_not_pos fun h => hv (mem_firsts.2 (support_pos_iff.1 h))
      have hsame : ∀ w ∈ firsts vs, support w (vs ++ [v]) = support w vs := fun w hw => by
        have hne : ¬ w.same v = true := fun h => hv (same_iff.1 h ▸ hw)
        rw [support_append_singleton, if_neg hne, Nat.add_zero]
      have hone : support v (vs ++ [v]) = 1 := by
        rw [support_append_singleton, hzero, if_pos (same_self v)]
      rw [List.map_singleton, hone]
      congr 1
      exact List.map_congr_left fun w hw => by rw [hsame w hw]

/-! ## The leader -/

omit [BEq α] [LawfulBEq α] in
/-- What is outranked by a group is outranked by all that the other does not outrank. -/
theorem outranks_or {x y : Outcome α × ℕ} (h : Outranks y x) (z : Outcome α × ℕ) :
    Outranks y z ∨ Outranks z x := by
  unfold Outranks at *
  by_cases hz : z.1.isOk <;> simp only [hz] <;> grind

omit [BEq α] [LawfulBEq α] in
theorem outranks_asymm {x y : Outcome α × ℕ} (h : Outranks y x) : ¬ Outranks x y := by
  unfold Outranks at *
  grind

omit [BEq α] [LawfulBEq α] in
/-- The leader outranks the groups before it, and none of those after it outranks the leader. -/
theorem leader_eq_some_split {groups : List (Outcome α × ℕ)} {best : Outcome α × ℕ}
    (h : leader groups = some best) : ∃ before after, groups = before ++ best :: after ∧
      (∀ x ∈ before, Outranks best x) ∧ ∀ x ∈ after, ¬ Outranks x best := by
  cases groups with
  | nil => simp [leader] at h
  | cons first rest =>
    simp only [leader, Option.some.injEq] at h
    -- on the groups that are still to come, from the back
    induction rest using List.reverseRecOn generalizing best with
    | nil => exact ⟨[], [], by simpa using h, by simp, by simp⟩
    | append_singleton rest y ih =>
      rw [List.foldl_append, List.foldl_cons, List.foldl_nil] at h
      obtain ⟨before, after, hsplit, hbefore, hafter⟩ := ih rfl
      split at h
      · next hy =>
        subst h
        refine ⟨first :: rest, [], by simp, fun x hx => ?_, by simp⟩
        rw [hsplit] at hx
        rcases List.mem_append.1 hx with hx | hx
        · exact (outranks_or hy x).resolve_right (outranks_asymm (hbefore x hx))
        · rcases List.mem_cons.1 hx with rfl | hx
          · exact hy
          · exact (outranks_or hy x).resolve_right (hafter x hx)
      · next hy =>
        subst h
        refine ⟨before, after ++ [y], by rw [← List.cons_append, hsplit]; simp, hbefore, ?_⟩
        intro x hx
        rcases List.mem_append.1 hx with hx | hx
        · exact hafter x hx
        · exact List.mem_singleton.1 hx ▸ hy

omit [BEq α] [LawfulBEq α] in
/-- The leader is one of the groups, and none has more votes. -/
theorem leader_eq_some {groups : List (Outcome α × ℕ)} {best : Outcome α × ℕ}
    (h : leader groups = some best) : best ∈ groups ∧ ∀ x ∈ groups, x.2 ≤ best.2 := by
  obtain ⟨before, after, rfl, hbefore, hafter⟩ := leader_eq_some_split h
  refine ⟨List.mem_append_cons_self, fun x hx => ?_⟩
  rcases List.mem_append.1 hx with hx | hx
  · rcases hbefore x hx with h | h <;> omega
  · rcases List.mem_cons.1 hx with rfl | hx
    · exact Nat.le_refl _
    · exact Nat.le_of_not_lt fun hlt => hafter x hx (Or.inl hlt)

/-- The vote cast most often has the greatest support. -/
theorem plurality_eq_some {ignored : List Category} {outcomes : List (Outcome α)} {v : Outcome α}
    {n : ℕ} (h : plurality ignored outcomes = some (v, n)) :
    v ∈ votes ignored outcomes ∧ n = support v (votes ignored outcomes) ∧
      ∀ w, support w (votes ignored outcomes) ≤ n := by
  rw [plurality, countVotes_eq] at h
  obtain ⟨hmem, hle⟩ := leader_eq_some h
  obtain ⟨w, hw, heq⟩ := List.mem_map.1 hmem
  obtain ⟨rfl, rfl⟩ := Prod.mk.inj heq
  refine ⟨mem_firsts.1 hw, rfl, fun u => ?_⟩
  rcases Nat.eq_zero_or_pos (support u (votes ignored outcomes)) with h0 | hpos
  · omega
  · exact hle (u, _) (List.mem_map.2 ⟨u, mem_firsts.2 (support_pos_iff.1 hpos), rfl⟩)

/-- The first vote with a property is the first of those that were cast with it. -/
theorem find?_firsts (p : Outcome α → Bool) (vs : List (Outcome α)) :
    (firsts vs).find? p = vs.find? p := by
  induction vs using List.reverseRecOn with
  | nil => rfl
  | append_singleton vs v ih =>
    rw [firsts_append_singleton, List.find?_append, ← ih]
    split
    · next hv =>
      rw [any_same_iff] at hv
      cases hp : (firsts vs).find? p with
      | some w => rfl
      | none =>
        have := List.find?_eq_none.1 hp v hv
        simp [this]
    · rw [List.find?_append]

/-- **The vote cast most often is a success if one is, and of those the first.** -/
theorem plurality_eq_find {ignored : List Category} {outcomes : List (Outcome α)} {v : Outcome α}
    {n : ℕ} (h : plurality ignored outcomes = some (v, n)) :
    let vs := votes ignored outcomes
    some v = (vs.find? fun w => w.isOk && support w vs == n).or
      (vs.find? fun w => support w vs == n) := by
  intro vs
  rw [plurality, countVotes_eq] at h
  obtain ⟨before, after, hsplit, hbefore, hafter⟩ := leader_eq_some_split h
  obtain ⟨ds, es', hds, rfl, hes⟩ := List.map_eq_append_iff.1 hsplit
  obtain ⟨d, es, rfl, hd, rfl⟩ := List.map_eq_cons_iff.1 hes
  obtain ⟨rfl, rfl⟩ := Prod.mk.inj hd
  have hfind (p : Outcome α → Bool) : vs.find? p = (ds ++ d :: es).find? p := by
    rw [← hds, find?_firsts]
  have hds (w) (hw : w ∈ ds) : Outranks (d, support d vs) (w, support w vs) :=
    hbefore _ (List.mem_map_of_mem hw)
  have hes (w) (hw : w ∈ es) : ¬ Outranks (w, support w vs) (d, support d vs) :=
    hafter _ (List.mem_map_of_mem hw)
  have hfirst (p : Outcome α → Bool) (hp : ∀ w ∈ ds, p w = false) (hd : p d) :
      vs.find? p = some d := by
    have hnone : ds.find? p = none := List.find?_eq_none.2 fun w hw => by simp [hp w hw]
    rw [hfind, List.find?_append, hnone, Option.none_or, List.find?_cons_of_pos hd]
  by_cases hok : d.isOk
  · have hsuccess : (vs.find? fun w => w.isOk && support w vs == support d vs) = some d := by
      refine hfirst _ (fun w hw => ?_) (by simp [hok])
      have := hds w hw
      grind [Outranks]
    rw [hsuccess, Option.some_or]
  · have hnone : (vs.find? fun w => w.isOk && support w vs == support d vs) = none := by
      rw [hfind, List.find?_eq_none]
      intro w hw
      rcases List.mem_append.1 hw with hw | hw
      · have := hds w hw
        grind [Outranks]
      · rcases List.mem_cons.1 hw with rfl | hw
        · simp [hok]
        · have := hes w hw
          grind [Outranks]
    have hfailure : (vs.find? fun w => support w vs == support d vs) = some d := by
      refine hfirst _ (fun w hw => ?_) (by simp)
      have := hds w hw
      grind [Outranks]
    rw [hnone, Option.none_or]
    exact hfailure.symm

theorem plurality_eq_none_iff {ignored : List Category} {outcomes : List (Outcome α)} :
    plurality ignored outcomes = none ↔ votes ignored outcomes = [] := by
  rw [plurality, countVotes_eq]
  constructor
  · intro h
    cases hf : firsts (votes ignored outcomes) with
    | nil =>
      refine List.eq_nil_iff_forall_not_mem.2 fun v hv => ?_
      have := mem_firsts.2 hv
      rw [hf] at this
      simp at this
    | cons w ws => simp [hf, leader] at h
  · intro h
    rw [h]
    rfl

end Quorum

end ErasureVault
