/-
  The size on which the slots agree.

  * A size is agreed on if enough slots report it and every other is reported by fewer, whatever
    the failures (`concludeSize_of_majority`), and no size is that too few report; no failure can
    come out but those of a split vote, an unavailable block and a caller who gave up
    (`concludeSize_cases`);
  * with too few reports the block is unavailable (`concludeSize_of_few`);
  * `Cluster.records id` are the records that the slots answer with, `Cluster.reports id n` how
    many of them state the size `n`, and `Cluster.sizeOf id` is the decision on them.
-/
import ErasureVault.Cluster.Read
import ErasureVault.Proofs.Calls
import ErasureVault.Proofs.Decision
import ErasureVault.Proofs.Record

namespace ErasureVault

open Quorum

/-- Whether the outcome says that the caller gave up. -/
def Outcome.isCanceled {α : Type} : Outcome α → Bool
  | .ok _ => false
  | .error e => e.isCanceled

/-- The failures of a read on whose size too few slots agree. -/
def Failure.Unread (e : Failure) : Prop :=
  (∃ agreeing required failed, e = .readQuorum agreeing required failed) ∨
    ∃ key, e = .blockUnknown key

theorem unread_unavailable (key : String) (required : ℕ) (records : List (Outcome SizeRecord)) :
    (unavailable key required records).Unread := by
  rw [unavailable]
  split
  · exact Or.inr ⟨key, rfl⟩
  · exact Or.inl ⟨_, _, _, rfl⟩

/-! ## Too few answers -/

section
variable {key : String} {required : ℕ} {records : List (Outcome SizeRecord)}

/-- What the slots answer, whatever the sizes. -/
abbrev answersOf (records : List (Outcome SizeRecord)) : List (Outcome Unit) :=
  records.map fun r => r.map fun _ => ()

theorem support_ok_answersOf :
    support (.ok ()) (votes readIgnored (answersOf records)) = records.countP Outcome.isOk := by
  rw [support_ok_votes, support, List.countP_map]
  exact List.countP_congr fun r _ => by cases r <;> simp [Except.map, Outcome.same, Outcome.isOk]

theorem support_canceled_answersOf :
    support (.error .canceledByCaller) (votes readIgnored (answersOf records)) =
      records.countP Outcome.isCanceled := by
  rw [votes_eq_map_canonical, support, List.countP_map, List.countP_filter, List.countP_map]
  refine List.countP_congr fun r _ => ?_
  cases r with
  | ok r => simp [Except.map, Outcome.canonical, Outcome.same, Outcome.isCanceled]
  | error e =>
    cases he : e.isCanceled with
    | true =>
      have hcategory : e.category = .canceled := of_decide_eq_true he
      simp [Except.map, Outcome.canonical, Outcome.same, Outcome.isCanceled, Outcome.isIgnored,
        readIgnored, he, hcategory]
    | false =>
      have hne : Failure.canceledByCaller ≠ e := fun h => by simp [← h] at he
      simp [Except.map, Outcome.canonical, Outcome.same, Outcome.isCanceled, he, hne]

/-- All cancellations count as one. -/
theorem eq_canceledByCaller_of_mem_votes {α : Type} {ignored : List Category}
    {outcomes : List (Outcome α)} {e : Failure} (h : .error e ∈ votes ignored outcomes)
    (he : e.isCanceled) : e = .canceledByCaller := by
  rw [votes_eq_map_canonical] at h
  obtain ⟨o, -, ho⟩ := List.mem_map.1 h
  cases o with
  | ok a => simp [Outcome.canonical] at ho
  | error e' =>
    obtain rfl : (if e'.isCanceled then .canceledByCaller else e') = e := Except.error.inj ho
    split_ifs at he ⊢ with hc
    · rfl
    · exact absurd he hc

/-- **Too few reports make the block unavailable**, however alike the failures of the others. -/
theorem concludeSize_of_few (ha : records.countP Outcome.isOk < required)
    (hc : records.countP Outcome.isCanceled < required) :
    concludeSize false key required records = .error (unavailable key required records) := by
  rw [concludeSize]
  simp only [ha, if_true]
  rcases resolve_cases readIgnored required (fun _ => unavailable key required records)
    (answersOf records) with ⟨v, hv, hq, hr⟩ | ⟨n, hr⟩
  · cases v with
    | ok u =>
      rw [support_ok_answersOf] at hq
      omega
    | error e =>
      have hnot : ¬ e.isCanceled := fun he => by
        rw [eq_canceledByCaller_of_mem_votes hv he, support_canceled_answersOf] at hq
        omega
      simp [hr, hnot]
  · simp [hr]

end

/-! ## Enough answers -/

section
variable {canceled : Bool} {key : String} {required : ℕ} {records : List (Outcome SizeRecord)}

theorem votes_filter_isOk :
    votes [] (records.filter Outcome.isOk) = records.filter Outcome.isOk := by
  rw [votes_nil]
  refine (List.map_congr_left fun r hr => ?_).trans (List.map_id _)
  cases r with
  | ok r => rfl
  | error e => simp [Outcome.isOk] at hr

theorem support_ok_filter (r : SizeRecord) :
    support (.ok r) (records.filter Outcome.isOk) = support (.ok r) records := by
  rw [support, List.countP_filter]
  refine List.countP_congr fun o _ => ?_
  cases o <;> simp [Outcome.same, Outcome.isOk]

theorem support_error_filter (e : Failure) :
    support (.error e) (records.filter Outcome.isOk) = 0 := by
  refine List.countP_eq_zero.2 fun o ho => ?_
  cases o with
  | ok r => simp [Outcome.same]
  | error e => simp [Outcome.isOk] at ho

theorem support_le_countP_isOk (r : SizeRecord) :
    support (.ok r) records ≤ records.countP Outcome.isOk := by
  refine List.countP_mono_left fun o _ ho => ?_
  cases o with
  | ok r => rfl
  | error e => simp [Outcome.same] at ho

/-- **The size that most slots report is agreed on**, if they are enough. -/
theorem concludeSize_of_majority {r : SizeRecord} (hpos : 0 < required)
    (hq : required ≤ support (.ok r) records)
    (hlt : ∀ r' ≠ r, support (.ok r') records < support (.ok r) records) :
    concludeSize false key required records = .ok r.size := by
  have ha := Nat.le_trans hq (support_le_countP_isOk r)
  have hmem : (.ok r : Outcome SizeRecord) ∈ records.filter Outcome.isOk := by
    rw [← support_pos_iff, support_ok_filter]
    omega
  rw [concludeSize]
  simp only [if_neg (Nat.not_lt.2 ha)]
  rw [resolve_of_strict_majority (v := .ok r)]
  · rfl
  · rwa [votes_filter_isOk, support_ok_filter]
  · rwa [votes_filter_isOk]
  · intro w hw
    rw [votes_filter_isOk, support_ok_filter]
    cases w with
    | ok r' =>
      rw [support_ok_filter]
      exact hlt r' fun h => hw (h ▸ rfl)
    | error e =>
      rw [support_error_filter]
      omega

/-- A caller who gave up gets no size. -/
theorem concludeSize_canceled :
    concludeSize true key required records = .error .canceledByCaller := by
  rw [concludeSize]
  split <;> rfl

/-- With too few reports the caller gave up, or the block is unavailable. -/
theorem concludeSize_few_cases (ha : records.countP Outcome.isOk < required) (canceled : Bool)
    (key : String) :
    ∃ e : Failure, (e.isCanceled ∨ e = unavailable key required records) ∧
      concludeSize canceled key required records = .error e := by
  cases canceled with
  | true => exact ⟨.canceledByCaller, Or.inl rfl, concludeSize_canceled⟩
  | false =>
    rw [concludeSize]
    simp only [ha, if_true]
    split
    · split_ifs with he
      · exact ⟨_, Or.inl he, rfl⟩
      · exact ⟨_, Or.inr rfl, rfl⟩
    · exact ⟨_, Or.inr rfl, rfl⟩

/-- With enough reports the caller gave up, or too few state the same size. -/
theorem concludeSize_enough_cases (ha : required ≤ records.countP Outcome.isOk) (canceled : Bool)
    (key : String) :
    (∃ r, required ≤ support (.ok r) records ∧
      concludeSize canceled key required records = .ok r.size) ∨
    ∃ e : Failure,
      (e.isCanceled ∨ ∃ agreeing required failed, e = .readQuorum agreeing required failed) ∧
      concludeSize canceled key required records = .error e := by
  cases canceled with
  | true => exact Or.inr ⟨.canceledByCaller, Or.inl rfl, concludeSize_canceled⟩
  | false =>
    rw [concludeSize]
    simp only [Nat.not_lt.2 ha, if_false]
    rcases resolve_cases [] required
      (fun count => .readQuorum count required (records.length - records.countP Outcome.isOk))
      (records.filter Outcome.isOk) with ⟨v, hv, hq, hr⟩ | ⟨m, hr⟩
    · rw [votes_filter_isOk] at hv hq
      rw [hr]
      cases v with
      | ok r =>
        rw [support_ok_filter] at hq
        exact Or.inl ⟨r, hq, rfl⟩
      | error e => simp [Outcome.isOk] at hv
    · rw [hr]
      exact Or.inr ⟨_, Or.inr ⟨_, _, _, rfl⟩, rfl⟩

/-- **A size is agreed on only if enough slots report it**, and else the caller gave up or the block
is not read. -/
theorem concludeSize_cases (canceled : Bool) (key : String) (required : ℕ)
    (records : List (Outcome SizeRecord)) :
    (∃ r, required ≤ support (.ok r) records ∧
      concludeSize canceled key required records = .ok r.size) ∨
    ∃ e : Failure, (e.isCanceled ∨ e.Unread) ∧
      concludeSize canceled key required records = .error e := by
  rcases Nat.lt_or_ge (records.countP Outcome.isOk) required with ha | ha
  · obtain ⟨e, he, h⟩ := concludeSize_few_cases ha canceled key
    refine Or.inr ⟨e, he.imp_right ?_, h⟩
    rintro rfl
    exact unread_unavailable ..
  · refine (concludeSize_enough_cases ha canceled key).imp_right ?_
    rintro ⟨e, he, h⟩
    exact ⟨e, he.imp_right Or.inl, h⟩

theorem concludeSize_ok {n : ℕ} (h : concludeSize canceled key required records = .ok n) :
    ∃ r, required ≤ support (.ok r) records ∧ r.size = n := by
  rcases concludeSize_cases canceled key required records with ⟨r, hq, hr⟩ | ⟨e, -, he⟩
  · exact ⟨r, hq, Except.ok.inj (hr.symm.trans h)⟩
  · simp [he] at h

theorem concludeSize_error {e : Failure}
    (h : concludeSize canceled key required records = .error e) : e.isCanceled ∨ e.Unread := by
  rcases concludeSize_cases canceled key required records with ⟨r, -, hr⟩ | ⟨e', he', hr⟩
  · simp [hr] at h
  · exact Except.error.inj (hr.symm.trans h) ▸ he'

end

/-! ## The records of a cluster -/

namespace Cluster

variable {c : Cluster} {id : Digest}

/-- What the slots answer when asked for the size of a block, and the cluster after that. -/
def askSize (id : Digest) (c : Cluster) : List (Outcome SizeRecord) × Cluster :=
  c.ask "get_meta" fun _ => Node.getSize id.key

/-- The records of a block that the slots answer with. -/
def records (id : Digest) (c : Cluster) : List (Outcome SizeRecord) :=
  (c.askSize id).1

/-- How many slots report the size `n`. -/
def reports (id : Digest) (c : Cluster) (n : ℕ) : ℕ :=
  (c.records id).countP fun
    | .ok r => r.size = n
    | .error _ => false

/-- The size of a block on which the slots agree, for a caller who does not give up. -/
def sizeOf (id : Digest) (c : Cluster) : Outcome ℕ :=
  if c.geometry.data < 2 then .error (.readQuorum 0 c.geometry.data 0)
  else concludeSize false id.key c.geometry.data (c.records id)

/-- The call by which the slots are asked for the size of a block. -/
abbrev sizeTerms (c : Cluster) : Terms := ⟨"get_meta", .never, c.limit, 0⟩

/-- A slot that answers gives a record that is not negative. -/
theorem not_neg_of_mem_records {r : SizeRecord} (h : .ok r ∈ c.records id) : ¬ r.value < 0 := by
  obtain ⟨s, hs, ho⟩ := List.mem_map.1 h
  obtain ⟨i, n, rfl⟩ := exists_callNode_of_mem_callSlots hs
  obtain ⟨b, -, hb⟩ := callNode_mapOutcome_ok ho
  exact (SizeRecord.decode_eq_ok_iff.1 hb).1

theorem Bound.length_records (h : c.Bound) : (c.records id).length = c.geometry.total := by
  simp [records, askSize, ask, h.length_eq]

theorem Bound.getElem?_records (h : c.Bound) (i : ℕ) :
    (c.records id)[i]? = (c.slotNode? i).map fun n =>
      (callNode c.sizeTerms i (Node.getRecord id.key) n).1.outcome.bind SizeRecord.decode := by
  have hcall := h.getElem?_called (t := c.sizeTerms) (fun _ => Node.getSize id.key) i
  have hread := callNode_mapOutcome c.sizeTerms i SizeRecord.decode (Node.getRecord id.key)
  rw [records, askSize, ask, List.getElem?_map, hcall, Option.map_map]
  exact congrArg (fun f => (c.slotNode? i).map f) (funext fun n => (hread n).1)

theorem Bound.slotNode?_askSize (h : c.Bound) (i : ℕ) :
    (c.askSize id).2.slotNode? i = (c.slotNode? i).map fun n =>
      (callNode c.sizeTerms i (Node.getRecord id.key) n).2 := by
  have hcall := h.slotNode?_called (t := c.sizeTerms) (fun _ => Node.getSize id.key) i
  have hread := callNode_mapOutcome c.sizeTerms i SizeRecord.decode (Node.getRecord id.key)
  rw [askSize, ask, hcall]
  exact congrArg (fun f => (c.slotNode? i).map f) (funext fun n => (hread n).2)

/-- Slots that report one size answer with one record. -/
theorem support_ok_records {r : SizeRecord} (hr : ¬ r.value < 0) :
    support (.ok r) (c.records id) = c.reports id r.size := by
  refine List.countP_congr fun o ho => ?_
  cases o with
  | error e => simp [Outcome.same]
  | ok r' =>
    simp only [Outcome.same, beq_iff_eq, decide_eq_true_eq]
    constructor
    · rintro rfl
      rfl
    · exact fun h => (SizeRecord.ext_size (not_neg_of_mem_records ho) hr h).symm

/-- **Enough reports of one size, and fewer of every other, settle the size of a block.** -/
theorem sizeOf_of_majority {n : ℕ} (hk : 2 ≤ c.geometry.data)
    (hq : c.geometry.data ≤ c.reports id n) (hlt : ∀ n' ≠ n, c.reports id n' < c.reports id n) :
    c.sizeOf id = .ok n := by
  have hpos : 0 < c.reports id n := by omega
  obtain ⟨o, ho, hn⟩ := List.countP_pos_iff.1 hpos
  cases o with
  | error e => simp at hn
  | ok r =>
    obtain rfl : r.size = n := of_decide_eq_true hn
    have hr := not_neg_of_mem_records ho
    rw [sizeOf, if_neg (Nat.not_lt.2 hk)]
    refine concludeSize_of_majority (by omega) (by rwa [support_ok_records hr]) fun r' hne => ?_
    rw [support_ok_records hr]
    by_cases hr' : r'.value < 0
    · have hzero : support (.ok r') (c.records id) = 0 :=
        Nat.eq_zero_of_not_pos fun h => not_neg_of_mem_records (support_pos_iff.1 h) hr'
      omega
    · rw [support_ok_records hr']
      exact hlt _ fun h => hne (SizeRecord.ext_size hr' hr h)

end Cluster

namespace Op.Triple

variable {c : Cluster} {id : Digest}

theorem agreedSize_never (id : Digest) (c : Cluster) :
    Triple (· = c) (Cluster.agreedSize .never id)
      (fun n c' => c.sizeOf id = .ok n ∧ c' = (c.askSize id).2)
      (fun e _ => c.sizeOf id = .error e) := by
  unfold Cluster.agreedSize
  refine (checkToken .never fun _ _ h => absurd rfl h).bind fun _ => ?_
  refine cluster.bind fun c₀ => of_each ?_
  rintro _ ⟨rfl, rfl⟩
  have hread : c₀.thresholds.read = c₀.geometry.data := rfl
  simp only [hread]
  by_cases hk : c₀.geometry.data < 2
  · have hsize : c₀.sizeOf id = .error (.readQuorum 0 c₀.geometry.data 0) := if_pos hk
    simp only [hk, if_true]
    exact throw_bind fun c hc => hc ▸ hsize
  · have hsize : c₀.sizeOf id =
        concludeSize false id.key c₀.geometry.data (c₀.askSize id).1 := if_neg hk
    simp only [hk, if_false]
    refine (callAll_never "get_meta" _ c₀).bind fun records => ?_
    refine (isCanceled .never).bind fun b => of_each ?_
    rintro _ ⟨hb, hrecords, rfl⟩
    rw [hb rfl, hrecords]
    refine ofOutcome (fun n c hc h => ?_) fun e c hc h => ?_
    · exact ⟨hsize.trans h, hc⟩
    · exact hsize.trans h

/-- **The size that a caller who does not give up is told.** -/
theorem size_never (id : Digest) (c : Cluster) :
    Triple (· = c) (Cluster.size .never id) (fun n _ => c.sizeOf id = .ok n)
      (fun e _ => c.sizeOf id = .error e) := by
  unfold Cluster.size
  exact timed ((agreedSize_never id c).imp_ok fun _ _ h => h.1) (fun _ _ _ h => h) fun _ _ _ h => h

end Op.Triple

end ErasureVault
