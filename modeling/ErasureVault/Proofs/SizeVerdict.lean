/-
  The size that a caller is told, in closed form.

  * `sizesOf records` are the sizes that the slots report, in the order of the slots, and
    `topCount` how often the most frequent of them occurs;
  * `sizeVerdict` is what a caller is told: with too few reports, whether enough slots say that the
    block is unknown; with enough, the first of the sizes that most slots report, if enough do;
  * the decision on the records is this verdict (`concludeSize_eq_verdict`), unless too few slots
    report a size and the caller seems to have given up on enough of the others. Hence what a caller
    is told about a block depends on the sizes and on how many slots do not know it
    (`size_eq_verdict`), and on nothing else about the failures.
-/
import ErasureVault.Proofs.Tolerance
import Mathlib.Data.List.Find

namespace ErasureVault

open Quorum

/-! ## Sizes in the order of the slots -/

/-- The size that a slot reports. -/
def Outcome.reported? : Outcome SizeRecord → Option ℕ
  | .ok r => some r.size
  | .error _ => none

/-- The sizes that the slots report, in the order of the slots. -/
def sizesOf (records : List (Outcome SizeRecord)) : List ℕ :=
  records.filterMap Outcome.reported?

/-- How often the most frequent of some sizes occurs. -/
def topCount (sizes : List ℕ) : ℕ :=
  ((sizes.map fun n => sizes.count n).max?).getD 0

/-- What a caller is told who asks `slots` slots for the size of a block, of which `required` must
agree: the slots report the sizes `sizes`, in their order, and `missing` of them do not know the
block. -/
def sizeVerdict (key : String) (required slots : ℕ) (sizes : List ℕ) (missing : ℕ) : Outcome ℕ :=
  if sizes.length < required then
    if required ≤ missing then .error (.blockUnknown key)
    else .error (.readQuorum sizes.length required (slots - sizes.length))
  else
    let top := topCount sizes
    match sizes.find? fun n => required ≤ top && sizes.count n == top with
    | some n => .ok n
    | none => .error (.readQuorum top required (slots - sizes.length))

theorem topCount_eq {sizes : List ℕ} {n : ℕ} (hn : n ∈ sizes)
    (hle : ∀ m ∈ sizes, sizes.count m ≤ sizes.count n) : topCount sizes = sizes.count n := by
  have hmax : (sizes.map fun n => sizes.count n).max? = some (sizes.count n) := by
    rw [List.max?_eq_some_iff]
    exact ⟨List.mem_map_of_mem hn, List.forall_mem_map.2 hle⟩
  rw [topCount, hmax, Option.getD_some]

section
variable {key : String} {required : ℕ} {records : List (Outcome SizeRecord)}

theorem length_sizesOf : (sizesOf records).length = records.countP Outcome.isOk := by
  rw [sizesOf, ← List.countP_true, List.countP_filterMap]
  refine List.countP_congr fun o _ => ?_
  cases o <;> simp [Outcome.isOk, Outcome.reported?]

/-- Records that are not negative are counted by their sizes. -/
theorem support_ok_eq_count (hneg : ∀ r, .ok r ∈ records → ¬ r.value < 0) {r : SizeRecord}
    (hr : ¬ r.value < 0) : support (.ok r) records = (sizesOf records).count r.size := by
  rw [support, sizesOf, List.count_filterMap]
  refine List.countP_congr fun o ho => ?_
  cases o with
  | error e => simp [Outcome.same, Outcome.reported?]
  | ok r' =>
    simp only [Outcome.same, Outcome.reported?, beq_iff_eq, Option.some.injEq]
    exact ⟨fun h => h ▸ rfl, fun h => (SizeRecord.ext_size (hneg r' ho) hr h).symm⟩

theorem mem_sizesOf {n : ℕ} : n ∈ sizesOf records ↔ ∃ r, .ok r ∈ records ∧ r.size = n := by
  rw [sizesOf, List.mem_filterMap]
  constructor
  · rintro ⟨o, ho, h⟩
    cases o with
    | error e => simp [Outcome.reported?] at h
    | ok r => exact ⟨r, ho, Option.some.inj h⟩
  · rintro ⟨r, hr, rfl⟩
    exact ⟨_, hr, rfl⟩

/-- The first slot that reports a size with a property gives the first such size. -/
theorem find?_sizesOf {p : ℕ → Bool} {r : SizeRecord}
    (h : (records.find? fun o => o.reported?.any p) = some (.ok r)) :
    (sizesOf records).find? p = some r.size := by
  rw [sizesOf, List.find?_filterMap, h]
  rfl

/-- The slots that answer vote for the first of the sizes that most of them report. -/
theorem exists_plurality (hneg : ∀ r, .ok r ∈ records → ¬ r.value < 0)
    (hsome : sizesOf records ≠ []) :
    ∃ r, plurality [] (records.filter Outcome.isOk) = some (.ok r, topCount (sizesOf records)) ∧
      ((sizesOf records).find? fun n => (sizesOf records).count n == topCount (sizesOf records)) =
        some r.size := by
  set sizes := sizesOf records with hsizes
  set vs := records.filter Outcome.isOk with hvs
  have hvotes : votes [] vs = vs := votes_filter_isOk
  obtain ⟨⟨v, n⟩, hp⟩ : ∃ best, plurality [] vs = some best := by
    refine Option.ne_none_iff_exists'.1 fun hnone => hsome (List.length_eq_zero_iff.1 ?_)
    rw [plurality_eq_none_iff, hvotes, hvs, List.filter_eq_nil_iff] at hnone
    rw [hsizes, length_sizesOf, List.countP_eq_zero]
    exact hnone
  obtain ⟨hv, hn, hmax⟩ := plurality_eq_some hp
  rw [hvotes] at hv hn hmax
  obtain ⟨hmem, hok⟩ := List.mem_filter.1 hv
  cases v with
  | error e => exact absurd hok Bool.false_ne_true
  | ok r =>
    have hcount {r' : SizeRecord} (hr' : .ok r' ∈ records) :
        support (.ok r') vs = sizes.count r'.size := by
      rw [hvs, support_ok_filter, support_ok_eq_count hneg (hneg r' hr')]
    have htop : topCount sizes = n := by
      rw [hn, hcount hmem]
      refine topCount_eq (mem_sizesOf.2 ⟨r, hmem, rfl⟩) fun m hm => ?_
      obtain ⟨r', hr', rfl⟩ := mem_sizesOf.1 hm
      rw [← hcount hr', ← hcount hmem, ← hn]
      exact hmax _
    refine ⟨r, by rw [htop]; exact hp, ?_⟩
    have hfirst := (leads_of_plurality hp).first
    rw [hvotes, hvs, List.find?_filter] at hfirst
    rw [htop]
    refine find?_sizesOf ((List.find?_congr fun o ho => ?_).trans hfirst)
    cases o with
    | error e => rfl
    | ok r' =>
      rw [Bool.eq_iff_iff]
      simp [Outcome.reported?, Outcome.isOk, ← hvs, hcount ho]

/-- **The size that enough answers give**: the first of those that most slots report. -/
theorem concludeSize_of_enough (hneg : ∀ r, .ok r ∈ records → ¬ r.value < 0) (hpos : 0 < required)
    (ha : required ≤ (sizesOf records).length) (missing : ℕ) :
    concludeSize false key required records =
      sizeVerdict key required records.length (sizesOf records) missing := by
  have hsome : sizesOf records ≠ [] := List.ne_nil_of_length_pos (Nat.lt_of_lt_of_le hpos ha)
  obtain ⟨r, hplurality, hfirst⟩ := exists_plurality hneg hsome
  have hlen : (sizesOf records).length = records.countP Outcome.isOk := length_sizesOf
  rw [concludeSize, sizeVerdict]
  simp only [← hlen, Nat.not_lt.2 ha, if_false]
  rw [resolve, if_neg Bool.false_ne_true, hplurality]
  by_cases hq : required ≤ topCount (sizesOf records)
  · simp only [hq, if_true, decide_true, Bool.true_and, hfirst]
    rfl
  · simp only [hq, if_false, decide_false, Bool.false_and]
    rw [List.find?_eq_none.2 fun _ _ => Bool.false_ne_true]
    rfl

/-- **What the slots decide on the size of a block**, whatever their failures. -/
theorem concludeSize_eq_verdict (hneg : ∀ r, .ok r ∈ records → ¬ r.value < 0) (hpos : 0 < required)
    (h : required ≤ (sizesOf records).length ∨ records.countP Outcome.isCanceled < required) :
    concludeSize false key required records = sizeVerdict key required records.length
      (sizesOf records) (records.countP Outcome.isMissing) := by
  rcases Nat.lt_or_ge (sizesOf records).length required with ha | ha
  · have hc := h.resolve_left (Nat.not_le.2 ha)
    rw [sizeVerdict, if_pos ha, length_sizesOf]
    rw [length_sizesOf] at ha
    rw [concludeSize_of_few ha hc, unavailable]
    split <;> rfl
  · exact concludeSize_of_enough hneg hpos ha _

end

namespace Cluster

variable {c : Cluster}

/-- **What a caller is told about the size of a block.** With one data shard nobody is asked. With
more, what the slots answer is the first of the sizes that most of them report, if enough do; if too
few report a size at all, the block is unknown if enough slots do not know it, and else unread. -/
theorem size_eq_verdict (hc : c.slots.length = c.geometry.total) (id : Digest) :
    let answers := c.records id
    let size := ((Cluster.size .never id).run c).1
    answers.length = c.geometry.total ∧
    (c.geometry.data = 1 → size = .error (.readQuorum 0 1 0)) ∧
    (2 ≤ c.geometry.data →
      c.geometry.data ≤ (sizesOf answers).length ∨
        answers.countP Outcome.isCanceled < c.geometry.data →
      size = sizeVerdict id.key c.geometry.data c.geometry.total (sizesOf answers)
        (answers.countP Outcome.isMissing)) := by
  intro answers size
  have hlen : answers.length = c.geometry.total := by
    rw [← hc]
    exact (List.length_map ..).trans length_called
  have hsize : size = c.sizeOf id := (Op.Triple.size_never id c).run_eq rfl
  refine ⟨hlen, fun hk => ?_, fun hk henough => ?_⟩
  · rw [hsize, sizeOf, hk]
    rfl
  · rw [hsize, sizeOf, if_neg (Nat.not_lt.2 hk), ← hlen]
    exact concludeSize_eq_verdict (fun _ => not_neg_of_mem_records) (by omega) henough

/-- Six slots, of which the first gives up; the next four report the sizes 7, 3, 3 and 7, and the last
does not know the block. -/
def dividedSlots (key : String) : Cluster where
  codec := .ofGeometry ⟨2, 4, Nat.two_pos, by decide, by decide⟩ 0
  policy := .quorum
  limit := none
  slots := [⟨"", 0⟩, ⟨"", 1⟩, ⟨"", 2⟩, ⟨"", 3⟩, ⟨"", 4⟩, ⟨"", 5⟩]
  nodes := [{ holding key [] [] with weather := fun _ _ => ⟨0, .refuse (.canceled "")⟩ },
    holding key [7, 0, 0, 0] [], holding key [3, 0, 0, 0] [], holding key [3, 0, 0, 0] [],
    holding key [7, 0, 0, 0] [], ⟨"", .memory (.empty 0), fun _ _ => ⟨0, .pass⟩, 0⟩]
  journal := []

/-- Of two sizes that as many slots report, the first is told. -/
theorem size_of_dividedSlots :
    let id : Digest := ⟨.blake3, List.replicate 32 0, rfl⟩
    sizesOf ((dividedSlots id.key).records id) = [7, 3, 3, 7] ∧
      ((Cluster.size .never id).run (dividedSlots id.key)).1 = .ok 7 := by
  intro id
  have hsizes : sizesOf ((dividedSlots id.key).records id) = [7, 3, 3, 7] := by decide +kernel
  obtain ⟨-, -, hverdict⟩ := size_eq_verdict (c := dividedSlots id.key) rfl id
  refine ⟨hsizes, (hverdict (by decide) (Or.inl ?_)).trans ?_⟩
  · rw [hsizes]
    decide
  · rw [hsizes]
    rfl

end Cluster

end ErasureVault
