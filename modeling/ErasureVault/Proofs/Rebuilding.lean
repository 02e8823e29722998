/-
  What rebuilding a stripe changes.

  * `Stripe.Has s i b`: the stripe has the shard `b`, which is not empty, at the slot `i`; it has
    `Stripe.known s` such shards, and is `Stripe.Uneven` if two of them differ in length;
  * `Geometry.Rebuilt g extent s` relates each way in which a rebuild of `s` can end to the stripe
    that it leaves. Every rebuild ends in one of them (`rebuilt_rebuild`), and nothing else can go
    wrong (`rebuildChecked_eq_rebuild`);
  * a rebuild fills in what is missing and changes nothing else, whatever the shards are, and a
    second one changes nothing at all (`rebuild_exact`).
-/
import ErasureVault.Code.Check
import ErasureVault.Proofs.Check

namespace ErasureVault

namespace Stripe

/-! ## Shards that are there -/

/-- The stripe has the shard `b`, which is not empty, at the slot `i`. -/
def Has (s : Stripe) (i : ℕ) (b : Bytes) : Prop :=
  s[i]? = some (some b) ∧ b ≠ []

/-- How many shards are there and not empty. -/
def known (s : Stripe) : ℕ :=
  s.countP fun shard => shard ≠ none ∧ shard ≠ some []

/-- Two of the shards that are there differ in length. -/
def Uneven (s : Stripe) : Prop :=
  ∃ i j b d, s.Has i b ∧ s.Has j d ∧ b.length ≠ d.length

variable {s : Stripe} {i n : ℕ} {b : Bytes} {f : ℕ → Option Bytes}

theorem getElem?_dropEmpty_eq_some_iff : s.dropEmpty[i]? = some (some b) ↔ s.Has i b := by
  rw [dropEmpty, List.getElem?_map, Option.map_eq_some_iff]
  constructor
  · rintro ⟨shard, hs, hshard⟩
    split at hshard
    · cases hshard
    · next hne =>
      subst hshard
      exact ⟨hs, fun h => hne (h ▸ rfl)⟩
  · rintro ⟨hs, hne⟩
    refine ⟨some b, hs, ?_⟩
    cases b with
    | nil => exact absurd rfl hne
    | cons d b => rfl

theorem mem_present_dropEmpty : (i, b) ∈ s.dropEmpty.present ↔ s.Has i b :=
  mem_present.trans getElem?_dropEmpty_eq_some_iff

theorem dropEmpty_dropEmpty (s : Stripe) : s.dropEmpty.dropEmpty = s.dropEmpty :=
  dropEmpty_of_ne_nil fun _ hp => (mem_present_dropEmpty.1 hp).2

theorem length_present_dropEmpty (s : Stripe) : s.dropEmpty.present.length = s.known := by
  rw [length_present, dropEmpty, List.countP_map, known]
  refine List.countP_congr fun shard _ => ?_
  rcases shard with _ | _ | _ <;> simp

theorem known_dropEmpty (s : Stripe) : s.dropEmpty.known = s.known := by
  rw [← length_present_dropEmpty, dropEmpty_dropEmpty, length_present_dropEmpty]

theorem known_le_length (s : Stripe) : s.known ≤ s.length :=
  List.countP_le_length

theorem exists_has_of_known (h : 0 < s.known) : ∃ i b, s.Has i b := by
  rw [← length_present_dropEmpty] at h
  obtain ⟨⟨i, b⟩, hp⟩ := List.exists_mem_of_length_pos h
  exact ⟨i, b, mem_present_dropEmpty.1 hp⟩

theorem known_pos (h : s.Has i b) : 0 < s.known := by
  rw [← length_present_dropEmpty]
  exact List.length_pos_of_mem (mem_present_dropEmpty.2 h)

/-- Shards that do not differ in length have a length in common. -/
theorem exists_length_of_not_uneven (h : ¬ s.Uneven) : ∃ n, ∀ i b, s.Has i b → b.length = n := by
  by_cases h0 : ∃ i b, s.Has i b
  · obtain ⟨j, d, hd⟩ := h0
    refine ⟨d.length, fun i b hb => ?_⟩
    by_contra hne
    exact h ⟨i, j, b, d, hb, hd, hne⟩
  · exact ⟨0, fun i b hb => absurd ⟨i, b, hb⟩ h0⟩

theorem not_uneven (h : ∀ i b, s.Has i b → b.length = n) : ¬ s.Uneven := by
  rintro ⟨i, j, b, d, hb, hd, hne⟩
  exact hne ((h i b hb).trans (h j d hd).symm)

theorem length_of_mem_present_dropEmpty (h : ∀ i b, s.Has i b → b.length = n) :
    ∀ p ∈ s.dropEmpty.present, p.2.length = n :=
  fun p hp => h p.1 p.2 (mem_present_dropEmpty.1 hp)

end Stripe

namespace Geometry

open Stripe

variable {g : Geometry} {extent : Extent} {s : Stripe} {n : ℕ}

/-! ## How a rebuild ends -/

/-- How a rebuild of a stripe ends: its outcome, and the stripe that it leaves. -/
inductive Rebuilt (g : Geometry) (extent : Extent) (s : Stripe) :
    Except Failure Unit → Stripe → Prop
  /-- There are not as many slots as the geometry has. -/
  | miscounted (hs : s.length ≠ g.total) : Rebuilt g extent s
      (.error (.coding ("expected " ++ toString g.total ++ " shards, got " ++ toString s.length))) s
  /-- There is nothing to rebuild, or nothing to rebuild from. -/
  | idle (hs : s.length = g.total) (h : s.known = 0 ∨ s.known = g.total) :
    Rebuilt g extent s (.ok ()) s.dropEmpty
  /-- There are too few shards to rebuild from. -/
  | scarce (hs : s.length = g.total) (h0 : 0 < s.known) (h : s.known < g.data) :
    Rebuilt g extent s (.error (.shardsMissing s.known g.data)) s.dropEmpty
  /-- Shards differ in length. -/
  | uneven (hs : s.length = g.total) (hle : g.data ≤ s.known) (hlt : s.known < g.total)
      (h : s.Uneven) : Rebuilt g extent s (.error CodingFault.wrongShardSize.failure) s.dropEmpty
  /-- What is missing is filled in. -/
  | filled (hs : s.length = g.total) (hle : g.data ≤ s.known) (hlt : s.known < g.total)
      (h : ¬ s.Uneven) : Rebuilt g extent s (.ok ()) (g.fillTo extent s.dropEmpty)

theorem examine_of_idle (h : s.present = [] ∨ s.present.length = g.total) :
    g.examine s = .ok false :=
  if_pos h.symm

theorem examine_of_uneven (hp : g.data ≤ s.present.length) (hlt : s.present.length < g.total)
    (h : ∃ p ∈ s.present, ∃ q ∈ s.present, p.2.length ≠ q.2.length) :
    g.examine s = .error CodingFault.wrongShardSize.failure := by
  obtain ⟨p, hp', q, hq, hne⟩ := h
  have h0 : s.present ≠ [] := List.ne_nil_of_mem hp'
  rw [examine]
  simp only [hlt.ne, h0, or_self, if_false, Nat.not_lt.2 hp]
  refine if_pos (List.any_eq_true.2 ?_)
  -- one of the two differs from the first
  by_cases hpn : p.2.length = (s.present.headD (0, [])).2.length
  · exact ⟨q, hq, decide_eq_true fun hqn => hne (hpn.trans hqn.symm)⟩
  · exact ⟨p, hp', decide_eq_true hpn⟩

/-- A stripe that is complete, or has no shard at all, is left as it is. -/
theorem rebuild_of_idle (extent : Extent) (hs : s.length = g.total)
    (h : s.known = 0 ∨ s.known = g.total) : g.rebuild extent s = (.ok (), s.dropEmpty) := by
  rw [← length_present_dropEmpty, List.length_eq_zero_iff] at h
  rw [rebuild, if_neg (not_not.2 hs)]
  dsimp only
  rw [examine_of_idle h]

/-- **Every rebuild ends in one of these ways.** -/
theorem rebuilt_rebuild (g : Geometry) (extent : Extent) (s : Stripe) :
    Rebuilt g extent s (g.rebuild extent s).1 (g.rebuild extent s).2 := by
  by_cases hs : s.length = g.total
  swap
  · rw [rebuild, if_pos hs]
    exact .miscounted hs
  by_cases hidle : s.known = 0 ∨ s.known = g.total
  · rw [rebuild_of_idle extent hs hidle]
    exact .idle hs hidle
  obtain ⟨h0, htotal⟩ := not_or.1 hidle
  have hknown := length_present_dropEmpty s
  have hle : s.known ≤ g.total := hs ▸ s.known_le_length
  rw [rebuild, if_neg (not_not.2 hs)]
  dsimp only
  by_cases hfew : s.known < g.data
  · rw [examine_of_few (by rwa [← List.length_eq_zero_iff.ne, hknown]) (by rwa [hknown]), hknown]
    exact .scarce hs (Nat.pos_of_ne_zero h0) hfew
  have hlt : s.known < g.total := by omega
  by_cases heven : s.Uneven
  · rw [examine_of_uneven (by omega) (by omega)]
    · exact .uneven hs (by omega) hlt heven
    · obtain ⟨i, j, b, d, hb, hd, hne⟩ := heven
      exact ⟨(i, b), mem_present_dropEmpty.2 hb, (j, d), mem_present_dropEmpty.2 hd, hne⟩
  · obtain ⟨n, hn⟩ := exists_length_of_not_uneven heven
    rw [examine_of_enough (length_of_mem_present_dropEmpty hn) (by omega) (by omega)]
    exact .filled hs (by omega) hlt heven

namespace Rebuilt

variable {outcome : Except Failure Unit} {s' : Stripe}

theorem untouched (h : g.Rebuilt extent s outcome s') (hs : s.length ≠ g.total) :
    (∃ e, outcome = .error e) ∧ s' = s := by
  cases h with
  | miscounted => exact ⟨⟨_, rfl⟩, rfl⟩
  | idle hs' | scarce hs' | uneven hs' | filled hs' => exact absurd hs' hs

/-- A rebuild of a stripe with the right number of slots fails exactly if there are too few shards,
or unequal ones where some are missing. -/
theorem error_iff (h : g.Rebuilt extent s outcome s') (hs : s.length = g.total) :
    (∃ e, outcome = .error e) ↔
      0 < s.known ∧ s.known < g.data ∨ s.known < g.total ∧ s.Uneven := by
  have hlt := g.data_lt_total
  cases h with
  | miscounted hs' => exact absurd hs hs'
  | scarce _ h0 h => exact iff_of_true ⟨_, rfl⟩ (.inl ⟨h0, h⟩)
  | uneven _ _ hlt h => exact iff_of_true ⟨_, rfl⟩ (.inr ⟨hlt, h⟩)
  | filled _ hle _ h =>
    refine iff_of_false (fun ⟨e, he⟩ => by cases he) ?_
    rintro (⟨-, hfew⟩ | ⟨-, heven⟩)
    · omega
    · exact h heven
  | idle _ h =>
    refine iff_of_false (fun ⟨e, he⟩ => by cases he) ?_
    rintro (⟨h0, hfew⟩ | ⟨hmissing, i, _, b, _, hb, -⟩)
    · omega
    · have hpos : 0 < s.known := known_pos hb
      omega

theorem eq_dropEmpty (h : g.Rebuilt extent s outcome s') (hs : s.length = g.total)
    (he : ∃ e, outcome = .error e) : s' = s.dropEmpty := by
  obtain ⟨e, rfl⟩ := he
  cases h with
  | miscounted hs' => exact absurd hs hs'
  | scarce | uneven => rfl

/-- The shards that were there stay. -/
theorem kept (h : g.Rebuilt extent s (.ok ()) s') {i : ℕ} {b : Bytes} (hb : s.Has i b) :
    s'[i]? = some (some b) := by
  have hdrop := getElem?_dropEmpty_eq_some_iff.2 hb
  cases h with
  | idle => exact hdrop
  | filled => exact getElem?_fillTo_of_some hdrop

theorem length_eq (h : g.Rebuilt extent s (.ok ()) s') : s'.length = s.length := by
  cases h with
  | idle => exact length_dropEmpty s
  | filled => rw [length_fillTo, length_dropEmpty]

/-- Every slot that is to be rebuilt gets a shard of the common length, and the others are left
alone. -/
theorem exists_length (h : g.Rebuilt extent s (.ok ()) s') (h0 : 0 < s.known)
    (hlt : s.known < g.total) : ∃ n, (∀ i b, s.Has i b → b.length = n) ∧ ∀ i < g.total,
      (extent.Covers g i → ∃ b, s'[i]? = some (some b) ∧ b.length = n) ∧
      (¬ extent.Covers g i → s'[i]? = s.dropEmpty[i]?) := by
  cases h with
  | idle _ h => omega
  | filled hs hle _ heven =>
    obtain ⟨n, hn⟩ := exists_length_of_not_uneven heven
    refine ⟨n, hn, fun i hi => ⟨fun hcov => ?_, getElem?_fillTo_of_not_covers⟩⟩
    obtain ⟨b, hb⟩ := exists_getElem?_fillTo (by rwa [length_dropEmpty, hs]) hcov
    refine ⟨b, hb, ?_⟩
    exact length_of_mem_present_fillTo (length_of_mem_present_dropEmpty hn)
      (by rwa [length_present_dropEmpty]) (i, b) (mem_present.2 hb)

end Rebuilt

/-- Whether the parity is rebuilt changes neither the outcome nor the data shards. -/
theorem rebuild_data_everything (g : Geometry) (s : Stripe) :
    (g.rebuild .data s).1 = (g.rebuild .everything s).1 ∧
      ∀ i < g.data, (g.rebuild .data s).2[i]? = (g.rebuild .everything s).2[i]? := by
  by_cases hs : s.length ≠ g.total
  · rw [rebuild, rebuild, if_pos hs, if_pos hs]
    exact ⟨rfl, fun _ _ => rfl⟩
  rw [rebuild, rebuild, if_neg hs, if_neg hs]
  dsimp only
  cases g.examine s.dropEmpty with
  | error e => exact ⟨rfl, fun _ _ => rfl⟩
  | ok missing =>
    cases missing with
    | false => exact ⟨rfl, fun _ _ => rfl⟩
    | true =>
      refine ⟨rfl, fun i hi => ?_⟩
      dsimp only
      exact (getElem?_fillTo_of_data hi).symm

/-- A stripe that has been filled in is left as it is. -/
theorem rebuild_filled (hs : s.length = g.total) (hle : g.data ≤ s.known)
    (hn : ∀ i b, s.Has i b → b.length = n) :
    let s' := g.fillTo extent s.dropEmpty
    g.rebuild extent s' = (.ok (), s') := by
  intro s'
  have hp : g.data ≤ s.dropEmpty.present.length := by rwa [length_present_dropEmpty]
  have hlength : ∀ p ∈ s'.present, p.2.length = n :=
    length_of_mem_present_fillTo (length_of_mem_present_dropEmpty hn) hp
  have hp' : g.data ≤ s'.present.length := hp.trans (present_length_le_fillTo ..)
  obtain ⟨i, b, hb⟩ := exists_has_of_known (g.data_pos.trans_le hle)
  have hpos : 0 < n := hn i b hb ▸ List.length_pos_iff.2 hb.2
  have hdrop : s'.dropEmpty = s' := dropEmpty_of_ne_nil fun p hmem hnil => by
    have := hlength p hmem
    rw [hnil, List.length_nil] at this
    omega
  have hs' : s'.length = g.total := by rw [length_fillTo, length_dropEmpty, hs]
  have hstays : g.fillTo extent s' = s' := fillTo_eq_self fun j hj hcov => by
    have hlt : j < s.dropEmpty.length := by
      rw [length_dropEmpty, hs, ← hs']
      exact (List.getElem?_eq_some_iff.1 hj).1
    obtain ⟨x, hx⟩ := exists_getElem?_fillTo hlt hcov
    cases hj.symm.trans hx
  rw [rebuild_of_enough extent hs' (by rwa [hdrop]) (by rwa [hdrop]), hdrop, hstays]

end Geometry

open ErasureVault.Geometry Stripe

namespace Codec

variable {c : Codec} {extent : Extent} {s : Stripe}

/-! ## Rebuilding with a codec -/

theorem after_after (c : Codec) (x y : Bool) : (c.after x).after y = c.after (x || y) := by
  simp [after, Bool.or_assoc]

theorem needsMatrix_iff {g : Geometry} :
    needsMatrix g s ↔ s.length = g.total ∧ s.known ≠ g.total ∧ g.data ≤ s.known := by
  simp [needsMatrix, length_present_dropEmpty, and_assoc]

theorem ofStripe?_of_not_uneven {g : Geometry} (hs : s.length = g.total) (hle : g.data ≤ s.known)
    (h : ¬ s.Uneven) : CodingFault.ofStripe? g.data g.total s.dropEmpty = none := by
  obtain ⟨n, hn⟩ := exists_length_of_not_uneven h
  have hlength : ∀ b ∈ s.dropEmpty.present.map Prod.snd, b ≠ [] ∧ b.length = n := by
    intro b hb
    obtain ⟨⟨i, _⟩, hp, rfl⟩ := List.mem_map.1 hb
    have hhas := mem_present_dropEmpty.1 hp
    exact ⟨hhas.2, hn i _ hhas⟩
  have hne : s.dropEmpty.present.map Prod.snd ≠ [] := fun hnil => by
    have := g.data_pos
    have := congrArg List.length hnil
    rw [List.length_map, length_present_dropEmpty, List.length_nil] at this
    omega
  have hhead : ((s.dropEmpty.present.map Prod.snd).headD []).length = n :=
    length_headD hne fun b hb => (hlength b hb).2
  have hfind : (s.dropEmpty.present.map Prod.snd).findSome? (fun b =>
      if b = [] then some CodingFault.emptyShard
      else if b.length ≠ n then some .wrongShardSize else none) = none := by
    refine List.findSome?_eq_none_iff.2 fun b hb => ?_
    rw [if_neg (hlength b hb).1, if_neg (not_not.2 (hlength b hb).2)]
  rw [CodingFault.ofStripe?]
  simp only [length_dropEmpty, hs, Nat.lt_irrefl, if_false, hhead, hfind, List.length_map,
    length_present_dropEmpty, Nat.not_lt.2 hle, and_false]

theorem ofStripe?_of_uneven {g : Geometry} (hs : s.length = g.total) (h : s.Uneven) :
    CodingFault.ofStripe? g.data g.total s.dropEmpty = some .wrongShardSize := by
  rw [CodingFault.ofStripe?]
  simp only [length_dropEmpty, hs, Nat.lt_irrefl, if_false]
  set n := ((s.dropEmpty.present.map Prod.snd).headD []).length
  have hne : ∀ b ∈ s.dropEmpty.present.map Prod.snd, b ≠ [] := by
    intro b hb
    obtain ⟨⟨i, _⟩, hp, rfl⟩ := List.mem_map.1 hb
    exact (mem_present_dropEmpty.1 hp).2
  cases hfind : (s.dropEmpty.present.map Prod.snd).findSome? fun b =>
      if b = [] then some CodingFault.emptyShard
      else if b.length ≠ n then some .wrongShardSize else none with
  | none =>
    -- all would have the length of the first
    refine absurd h (not_uneven (n := n) fun i b hb => ?_)
    have hmem : b ∈ s.dropEmpty.present.map Prod.snd :=
      List.mem_map.2 ⟨(i, b), mem_present_dropEmpty.2 hb, rfl⟩
    have hb' := List.findSome?_eq_none_iff.1 hfind b hmem
    rw [if_neg hb.2] at hb'
    by_contra hlength
    rw [if_pos hlength] at hb'
    cases hb'
  | some f =>
    obtain ⟨b, hb, hf⟩ := List.exists_of_findSome?_eq_some hfind
    rw [if_neg (hne b hb)] at hf
    split at hf
    · exact hf.symm
    · cases hf

/-- **Nothing else can go wrong with a rebuild.** -/
theorem rebuildChecked_eq_rebuild (c : Codec) (extent : Extent) (s : Stripe) :
    c.rebuildChecked extent s = c.rebuild extent s := by
  have hsame : c.after false = c := by simp [after]
  have hneeds (x : Bool) (hx : x = true ↔ s.length = c.geometry.total ∧
      s.known ≠ c.geometry.total ∧ c.geometry.data ≤ s.known) :
      needsMatrix c.geometry s = x := Bool.eq_iff_iff.2 (needsMatrix_iff.trans hx.symm)
  have hk := c.geometry.data_pos
  rw [rebuildChecked, rebuild]
  generalize hr : c.geometry.rebuild extent s = r
  have hrebuilt := rebuilt_rebuild c.geometry extent s
  rw [hr] at hrebuilt
  obtain ⟨outcome, s'⟩ := r
  dsimp only at hrebuilt ⊢
  rw [length_present_dropEmpty]
  cases hrebuilt with
  | miscounted hs =>
    rw [if_pos hs, hneeds false (by simp [hs]), hsame]
  | idle hs h =>
    rw [if_neg (not_not.2 hs), if_pos h.symm, hneeds false (by simp; omega), hsame]
  | scarce hs h0 h =>
    have hlt := c.geometry.data_lt_total
    rw [if_neg (not_not.2 hs), if_neg (by omega), if_pos h, hneeds false (by simp; omega), hsame]
  | uneven hs hle hlt h =>
    rw [if_neg (not_not.2 hs), if_neg (by omega), if_neg (by omega), CodingFault.ofCounts?_geometry,
      ofStripe?_of_uneven hs h, hneeds true (by simp; omega)]
  | filled hs hle hlt h =>
    rw [if_neg (not_not.2 hs), if_neg (by omega), if_neg (by omega), CodingFault.ofCounts?_geometry,
      ofStripe?_of_not_uneven hs hle h, hneeds true (by simp; omega)]

/-- **Rebuilding again changes nothing.** -/
theorem rebuild_rebuild (h : (c.rebuild extent s).1 = .ok ()) :
    let s' := (c.rebuild extent s).2.1
    let c' := (c.rebuild extent s).2.2
    c'.rebuild extent s' = (.ok (), s', c') := by
  simp only [rebuild] at h ⊢
  have hrebuilt := rebuilt_rebuild c.geometry extent s
  rw [h] at hrebuilt
  have hgeometry : (c.after (needsMatrix c.geometry s)).geometry = c.geometry := rfl
  rw [hgeometry, after_after]
  generalize (c.geometry.rebuild extent s).2 = s' at hrebuilt ⊢
  cases hrebuilt with
  | idle hs hidle =>
    have hneeds : needsMatrix c.geometry s.dropEmpty = needsMatrix c.geometry s := by
      rw [Bool.eq_iff_iff, needsMatrix_iff, needsMatrix_iff, length_dropEmpty, known_dropEmpty]
    rw [rebuild_of_idle extent (by rwa [length_dropEmpty]) (by rwa [known_dropEmpty]),
      dropEmpty_dropEmpty, hneeds, Bool.or_self]
  | filled hs hle hlt heven =>
    obtain ⟨n, hn⟩ := exists_length_of_not_uneven heven
    have hneeds : needsMatrix c.geometry s = true := needsMatrix_iff.2 ⟨hs, hlt.ne, hle⟩
    rw [rebuild_filled hs hle hn, hneeds, Bool.true_or]

/-- **Rebuilding fills in what is missing and changes nothing else**, whatever the shards are. It
fails if there are not as many slots as the geometry has, which leaves the stripe untouched, and
otherwise exactly if there are too few shards, or unequal ones where some are missing, which turns
empty shards into missing ones and no more. If it ends well, then the shards that were there stay,
every slot that is to be rebuilt gets a shard of the common length unless none was there at all, and
the others are left alone; to rebuild again changes nothing. The data shards do not depend on
whether the parity is rebuilt. -/
theorem rebuild_exact (c : Codec) (s : Stripe) :
    let g := c.geometry
    let outcome extent := (c.rebuild extent s).1
    let after extent := (c.rebuild extent s).2.1
    (∀ extent, c.rebuildChecked extent s = c.rebuild extent s) ∧
    (s.length ≠ g.total → ∀ extent, (∃ e, outcome extent = .error e) ∧ after extent = s) ∧
    (s.length = g.total → ∀ extent,
      ((∃ e, outcome extent = .error e) ↔
        0 < s.known ∧ s.known < g.data ∨ s.known < g.total ∧ s.Uneven) ∧
      ((∃ e, outcome extent = .error e) → after extent = s.dropEmpty)) ∧
    (∀ extent, outcome extent = .ok () →
      (after extent).length = s.length ∧
      (∀ i b, s.Has i b → (after extent)[i]? = some (some b)) ∧
      (0 < s.known → s.known < g.total → ∃ n, (∀ i b, s.Has i b → b.length = n) ∧
        ∀ i < g.total,
          (extent.Covers g i → ∃ b, (after extent)[i]? = some (some b) ∧ b.length = n) ∧
          (¬ extent.Covers g i → (after extent)[i]? = s.dropEmpty[i]?)) ∧
      let c' := (c.rebuild extent s).2.2
      c'.rebuild extent (after extent) = (.ok (), after extent, c')) ∧
    outcome .data = outcome .everything ∧
    ∀ i < g.data, (after .data)[i]? = (after .everything)[i]? := by
  intro g outcome after
  have hrebuilt (extent : Extent) : g.Rebuilt extent s (outcome extent) (after extent) :=
    rebuilt_rebuild g extent s
  refine ⟨fun extent => rebuildChecked_eq_rebuild c extent s,
    fun hs extent => (hrebuilt extent).untouched hs,
    fun hs extent => ⟨(hrebuilt extent).error_iff hs, (hrebuilt extent).eq_dropEmpty hs⟩,
    fun extent hok => ?_, rebuild_data_everything g s⟩
  have hgood : g.Rebuilt extent s (.ok ()) (after extent) := hok ▸ hrebuilt extent
  exact ⟨hgood.length_eq, fun i b => hgood.kept, hgood.exists_length, rebuild_rebuild hok⟩

/-- Two data shards, one of them empty, and two parity shards, which are not those of one block. -/
theorem rebuild_of_strangers :
    let c : Codec := .ofGeometry .twoAndTwo 0
    let s : Stripe := [some [], some [7, 7], some [5, 6], none]
    let odd : Stripe := [some [], some [7, 7], some [5], none]
    (c.rebuild .data s).1 = .ok () ∧ 0 < s.known ∧ s.known < Geometry.twoAndTwo.total ∧
      (c.rebuild .data s).2.1[1]? = some (some [7, 7]) ∧
      (∃ b, (c.rebuild .everything s).2.1[3]? = some (some b) ∧ b.length = 2) ∧
      (∃ e, (c.rebuild .data odd).1 = .error e) ∧
      (c.rebuild .data odd).2.1 = [none, some [7, 7], some [5], none] ∧
      (c.rebuild .data [none]).2.1 = [none] := by
  intro c s odd
  have hok : (c.rebuild .data s).1 = .ok () := by decide +kernel
  have hknown : s.known = 2 := by decide
  have hhas : s.Has 1 [7, 7] := ⟨rfl, by simp⟩
  obtain ⟨-, -, -, hgood, hsame, -⟩ := rebuild_exact c s
  obtain ⟨n, hn, hslots⟩ := (hgood .everything (hsame ▸ hok)).2.2.1 (by omega) (by decide)
  obtain ⟨b, hb, hlength⟩ := (hslots 3 (by decide)).1 trivial
  obtain ⟨-, -, hodd, -⟩ := rebuild_exact c odd
  have hfails : ∃ e, (c.rebuild .data odd).1 = .error e :=
    (hodd rfl .data).1.2
      (.inr ⟨by decide, 1, 2, [7, 7], [5], ⟨rfl, by simp⟩, ⟨rfl, by simp⟩, by simp⟩)
  exact ⟨hok, by omega, by rw [hknown]; decide, (hgood .data hok).2.1 1 _ hhas,
    ⟨b, hb, hlength.trans (hn 1 _ hhas).symm⟩, hfails, (hodd rfl .data).2 hfails,
    ((rebuild_exact c [none]).2.1 (by decide) .data).2⟩

end Codec

end ErasureVault
