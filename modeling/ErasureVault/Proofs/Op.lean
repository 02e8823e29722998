/-
  Operations and what is true after them.

  `Op.Triple P x Q E`: begun on a cluster with `P`, the operation `x` ends with a value and a
  cluster of which `Q` holds, or with a failure and a cluster of which `E` holds. There is a rule
  for each way to build an operation, calls of slots apart. `Op.Preserves I x`: begun on a cluster
  with `I`, the operation ends on one, whether it fails or not.
-/
import ErasureVault.Cluster.Basic

namespace ErasureVault.Op

variable {α β : Type}

theorem bind_apply (x : Op α) (f : α → Op β) (p : Progress) :
    (x >>= f) p = match x p with
      | (.ok a, q) => f a q
      | (.error e, q) => (.error e, q) := by
  simp only [Bind.bind, ExceptT.bind, ExceptT.mk, StateT.bind]
  rcases x p with ⟨_ | _, _⟩ <;> rfl

/-- Begun on a cluster with `P`, the operation ends with `Q` or fails with `E`. -/
def Triple (P : Cluster → Prop) (x : Op α) (Q : α → Cluster → Prop)
    (E : Failure → Cluster → Prop) : Prop :=
  ∀ p : Progress, P p.cluster →
    match x p with
    | (.ok a, q) => Q a q.cluster
    | (.error e, q) => E e q.cluster

/-- Begun on a cluster with `I`, the operation ends on one, whether it fails or not. -/
abbrev Preserves (I : Cluster → Prop) (x : Op α) : Prop :=
  Triple I x (fun _ => I) fun _ => I

namespace Triple

variable {P P' : Cluster → Prop} {Q Q' : α → Cluster → Prop} {R : β → Cluster → Prop}
  {E E' : Failure → Cluster → Prop} {x : Op α} {f : α → Op β} {c : Cluster}

/-! ## Runs -/

theorem run_ok (h : Triple P x Q E) (hc : P c) {a : α} (ha : (x.run c).1 = .ok a) :
    Q a (x.run c).2.2 := by
  have hp := h ⟨c, 0⟩ hc
  change (x ⟨c, 0⟩).1 = .ok a at ha
  change Q a (x ⟨c, 0⟩).2.cluster
  rcases hx : x ⟨c, 0⟩ with ⟨o, q⟩
  rw [hx] at hp ha
  obtain rfl : o = .ok a := ha
  exact hp

theorem run_error (h : Triple P x Q E) (hc : P c) {e : Failure} (he : (x.run c).1 = .error e) :
    E e (x.run c).2.2 := by
  have hp := h ⟨c, 0⟩ hc
  change (x ⟨c, 0⟩).1 = .error e at he
  change E e (x ⟨c, 0⟩).2.cluster
  rcases hx : x ⟨c, 0⟩ with ⟨o, q⟩
  rw [hx] at hp he
  obtain rfl : o = .error e := he
  exact hp

/-- An operation that cannot fail gives a value. -/
theorem exists_ok (h : Triple P x Q fun _ _ => False) (hc : P c) :
    ∃ a, (x.run c).1 = .ok a ∧ Q a (x.run c).2.2 := by
  cases ho : (x.run c).1 with
  | ok a => exact ⟨a, rfl, h.run_ok hc ho⟩
  | error e => exact (h.run_error hc ho).elim

/-- What holds of the cluster in either case holds after the run. -/
theorem run_cluster {J : Cluster → Prop} (h : Triple P x (fun _ => J) fun _ => J) (hc : P c) :
    J (x.run c).2.2 := by
  cases ho : (x.run c).1 with
  | ok a => exact h.run_ok hc ho
  | error e => exact h.run_error hc ho

/-- An operation whose value or failure is told by an outcome has that outcome. -/
theorem run_eq {o : Outcome α} (h : Triple P x (fun a _ => o = .ok a) fun e _ => o = .error e)
    (hc : P c) : (x.run c).1 = o := by
  cases ho : (x.run c).1 with
  | ok a => exact (h.run_ok hc ho).symm
  | error e => exact (h.run_error hc ho).symm

/-! ## Rules -/

theorem conseq (h : Triple P x Q E) (hP : ∀ c, P' c → P c) (hQ : ∀ a c, Q a c → Q' a c)
    (hE : ∀ e c, E e c → E' e c) : Triple P' x Q' E' := by
  intro p hp
  have hx := h p (hP _ hp)
  rcases hq : x p with ⟨_ | _, q⟩
  · rw [hq] at hx
    exact hE _ _ hx
  · rw [hq] at hx
    exact hQ _ _ hx

theorem bind (hx : Triple P x Q E) (hf : ∀ a, Triple (Q a) (f a) R E) :
    Triple P (x >>= f) R E := by
  intro p hp
  have h := hx p hp
  rw [bind_apply]
  rcases hq : x p with ⟨_ | a, q⟩
  · rw [hq] at h
    exact h
  · rw [hq] at h
    exact hf a q h

theorem imp_ok (h : Triple P x Q E) (hQ : ∀ a c, Q a c → Q' a c) : Triple P x Q' E :=
  h.conseq (fun _ hc => hc) hQ fun _ _ hc => hc

theorem imp_error (h : Triple P x Q E) (hE : ∀ e c, E e c → E' e c) : Triple P x Q E' :=
  h.conseq (fun _ hc => hc) (fun _ _ hc => hc) hE

/-- A rule for each cluster on its own. -/
theorem of_each (h : ∀ c, P c → Triple (· = c) x Q E) : Triple P x Q E :=
  fun p hp => h p.cluster hp p rfl

theorem each (h : Triple P x Q E) (hc : P c) : Triple (· = c) x Q E :=
  h.conseq (fun _ heq => heq ▸ hc) (fun _ _ hq => hq) fun _ _ he => he

theorem pure {a : α} (h : ∀ c, P c → Q a c) : Triple P (Pure.pure a) Q E :=
  fun p hp => h p.cluster hp

theorem throw {e : Failure} (h : ∀ c, P c → E e c) : Triple P (throw e : Op α) Q E :=
  fun p hp => h p.cluster hp

/-- Nothing is done after a failure. -/
theorem throw_bind {e : Failure} (h : ∀ c, P c → E e c) :
    Triple P ((MonadExcept.throw e : Op α) >>= f) R E :=
  fun p hp => h p.cluster hp

theorem cluster : Triple P Op.cluster (fun a c => a = c ∧ P c) E :=
  fun _ hp => ⟨rfl, hp⟩

theorem isCanceled (token : Token) :
    Triple P (Op.isCanceled token) (fun b c => (token = .never → b = false) ∧ P c) E :=
  fun p hp => ⟨fun h => h ▸ Token.isCanceled_never p.now, hp⟩

theorem checkToken (token : Token) (h : ∀ c, P c → token ≠ .never → E .canceledByCaller c) :
    Triple P (Op.checkToken token) (fun _ => P) E := by
  refine (isCanceled token).bind fun b => ?_
  cases b with
  | false => exact pure fun _ hc => hc.2
  | true => exact throw fun c hc => h c hc.2 fun ht => by simp at hc; exact hc.1 ht

theorem ofOutcome {o : Outcome α} (hQ : ∀ a c, P c → o = .ok a → Q a c)
    (hE : ∀ e c, P c → o = .error e → E e c) : Triple P (Op.ofOutcome o) Q E := by
  intro p hp
  cases o with
  | ok a => exact hQ a _ hp rfl
  | error e => exact hE e _ hp rfl

theorem modifyCluster {g : Cluster → Cluster} {Q : Unit → Cluster → Prop}
    (h : ∀ c, P c → Q () (g c)) : Triple P (Op.modifyCluster g) Q E :=
  fun p hp => h p.cluster hp

theorem timed {name : String} (h : Triple P x Q E)
    (hQ : ∀ a c j, Q a c → Q a { c with journal := j })
    (hE : ∀ e c j, E e c → E e { c with journal := j }) : Triple P (Op.timed name x) Q E := by
  intro p hp
  have hx := h p hp
  have hrun : ExceptT.run x p = x p := rfl
  rw [Op.timed, hrun]
  rcases hq : x p with ⟨_ | _, q⟩
  · rw [hq] at hx
    exact hE _ _ _ hx
  · rw [hq] at hx
    exact hQ _ _ _ hx

end Triple

theorem Preserves.timed {I : Cluster → Prop} {x : Op α} {name : String} (h : Preserves I x)
    (hI : ∀ c j, I c → I { c with journal := j }) : Preserves I (Op.timed name x) :=
  Triple.timed h (fun _ _ _ => hI _ _) fun _ _ _ => hI _ _

end ErasureVault.Op
