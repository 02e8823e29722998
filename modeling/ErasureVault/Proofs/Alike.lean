/-
  Two runs of an operation.

  * `Op.Alike R x x'`: begun at one time on clusters that `R` relates, the operations `x` and `x'`
    end at one time, with the same value or the same failure, on clusters that `R` relates. There is
    a rule for each way to build an operation;
  * `Cluster.Alike s I`: two clusters of one setting, and `I i` relates their nodes in each slot
    `i`. Calls of all slots end alike if those of each slot do (`Alike.callAll`).
-/
import ErasureVault.Cluster.Read
import ErasureVault.Proofs.Calls

namespace ErasureVault

variable {α β : Type}

namespace Op

/-- Begun at one time on clusters that `R` relates, the operations end at one time, with one outcome
and on clusters that `R` relates. -/
def Alike (R : Cluster → Cluster → Prop) (x x' : Op α) : Prop :=
  ∀ p p' : Progress, R p.cluster p'.cluster → p.now = p'.now →
    (x p).1 = (x' p').1 ∧ (x p).2.now = (x' p').2.now ∧ R (x p).2.cluster (x' p').2.cluster

namespace Alike

variable {R : Cluster → Cluster → Prop} {x x' : Op α} {f f' : α → Op β}

theorem run (h : Alike R x x') {c c' : Cluster} (hc : R c c') :
    (x.run c).1 = (x'.run c').1 ∧ (x.run c).2.1 = (x'.run c').2.1 ∧
      R (x.run c).2.2 (x'.run c').2.2 :=
  h ⟨c, 0⟩ ⟨c', 0⟩ hc rfl

theorem bind (hx : Alike R x x') (hf : ∀ a, Alike R (f a) (f' a)) :
    Alike R (x >>= f) (x' >>= f') := by
  intro p p' hp hnow
  obtain ⟨ho, hq, hR⟩ := hx p p' hp hnow
  rw [bind_apply, bind_apply]
  rcases hxp : x p with ⟨o, q⟩
  rcases hxp' : x' p' with ⟨o', q'⟩
  rw [hxp, hxp'] at ho hq hR
  obtain rfl : o = o' := ho
  cases o with
  | ok a => exact hf a q q' hR hq
  | error e => exact ⟨rfl, hq, hR⟩

/-- A cluster that is read differs from the other, but is related to it. -/
theorem bind_cluster {f f' : Cluster → Op β} (hf : ∀ c c', R c c' → Alike R (f c) (f' c')) :
    Alike R (Op.cluster >>= f) (Op.cluster >>= f') := by
  intro p p' hp hnow
  rw [bind_apply, bind_apply]
  exact hf p.cluster p'.cluster hp p p' hp hnow

theorem pure (a : α) : Alike R (Pure.pure a) (Pure.pure a) :=
  fun _ _ hp hnow => ⟨rfl, hnow, hp⟩

theorem throw (e : Failure) : Alike R (MonadExcept.throw e : Op α) (MonadExcept.throw e) :=
  fun _ _ hp hnow => ⟨rfl, hnow, hp⟩

/-- Nothing is done after a failure. -/
theorem throw_bind (e : Failure) :
    Alike R ((MonadExcept.throw e : Op α) >>= f) ((MonadExcept.throw e : Op α) >>= f') :=
  fun _ _ hp hnow => ⟨rfl, hnow, hp⟩

theorem ofOutcome (o : Outcome α) : Alike R (Op.ofOutcome o) (Op.ofOutcome o) :=
  fun _ _ hp hnow => ⟨rfl, hnow, hp⟩

/-- Callers give up at one time. -/
theorem isCanceled (token : Token) : Alike R (Op.isCanceled token) (Op.isCanceled token) :=
  fun _ _ hp hnow => ⟨congrArg (fun now => Except.ok (token.isCanceled now)) hnow, hnow, hp⟩

theorem checkToken (token : Token) : Alike R (Op.checkToken token) (Op.checkToken token) := by
  refine (isCanceled token).bind fun b => ?_
  cases b with
  | false => exact pure ()
  | true => exact throw _

theorem modifyCluster {g g' : Cluster → Cluster} (h : ∀ c c', R c c' → R (g c) (g' c')) :
    Alike R (Op.modifyCluster g) (Op.modifyCluster g') :=
  fun p p' hp hnow => ⟨rfl, hnow, h p.cluster p'.cluster hp⟩

theorem timed {name : String} (h : Alike R x x')
    (hR : ∀ c c' j j', R c c' → R { c with journal := j } { c' with journal := j' }) :
    Alike R (Op.timed name x) (Op.timed name x') := by
  intro p p' hp hnow
  obtain ⟨ho, hq, hrel⟩ := h p p' hp hnow
  exact ⟨ho, hq, hR _ _ _ _ hrel⟩

end Alike

end Op

/-! ## Clusters of one setting -/

/-- What a cluster is set up with. -/
structure Setting where
  geometry : Geometry
  policy : WritePolicy
  limit : Option ℕ

namespace Cluster

def setting (c : Cluster) : Setting :=
  ⟨c.geometry, c.policy, c.limit⟩

/-- Two clusters of one setting, whose nodes are related slot by slot. -/
structure Alike (s : Setting) (I : ℕ → Node → Node → Prop) (c c' : Cluster) : Prop where
  setting : c.setting = s
  setting' : c'.setting = s
  bound : c.Bound
  bound' : c'.Bound
  nodes : ∀ i n n', c.slotNode? i = some n → c'.slotNode? i = some n' → I i n n'

namespace Alike

variable {s : Setting} {I : ℕ → Node → Node → Prop} {c c' : Cluster}

theorem geometry (h : c.Alike s I c') : c.geometry = s.geometry :=
  congrArg Setting.geometry h.setting

theorem geometry' (h : c.Alike s I c') : c'.geometry = s.geometry :=
  congrArg Setting.geometry h.setting'

theorem slotNode?_cases (h : c.Alike s I c') (i : ℕ) :
    (c.slotNode? i = none ∧ c'.slotNode? i = none) ∨
      ∃ n n', c.slotNode? i = some n ∧ c'.slotNode? i = some n' ∧ I i n n' := by
  by_cases hi : i < s.geometry.total
  · obtain ⟨n, hn⟩ := h.bound.exists_slotNode? (h.geometry ▸ hi)
    obtain ⟨n', hn'⟩ := h.bound'.exists_slotNode? (h.geometry' ▸ hi)
    exact Or.inr ⟨n, n', hn, hn', h.nodes i n n' hn hn'⟩
  · have hnone {c : Cluster} (hc : c.Bound) (hg : c.geometry = s.geometry) :
        c.slotNode? i = none := by
      rwa [← hg, ← hc.isSome_slotNode?, Option.not_isSome_iff_eq_none] at hi
    exact Or.inl ⟨hnone h.bound h.geometry, hnone h.bound' h.geometry'⟩

theorem journal (h : c.Alike s I c') (j j' : Journal) :
    Cluster.Alike s I { c with journal := j } { c' with journal := j' } :=
  ⟨h.setting, h.setting', ⟨h.bound.1, h.bound.2, h.bound.3⟩, ⟨h.bound'.1, h.bound'.2, h.bound'.3⟩,
    h.nodes⟩

theorem codec (h : c.Alike s I c') {codec codec' : Codec} (hg : codec.geometry = s.geometry)
    (hg' : codec'.geometry = s.geometry) :
    Cluster.Alike s I { c with codec } { c' with codec := codec' } := by
  have hsetting : ({ c with codec } : Cluster).setting = s := by
    rw [← h.setting, Cluster.setting, Cluster.setting]
    exact congrArg (fun g => Setting.mk g c.policy c.limit) (hg.trans h.geometry.symm)
  have hsetting' : ({ c' with codec := codec' } : Cluster).setting = s := by
    rw [← h.setting', Cluster.setting, Cluster.setting]
    exact congrArg (fun g => Setting.mk g c'.policy c'.limit) (hg'.trans h.geometry'.symm)
  refine ⟨hsetting, hsetting', ?_, ?_, h.nodes⟩
  · exact ⟨h.bound.1.trans (congrArg Geometry.total (h.geometry.trans hg.symm)), h.bound.2,
      h.bound.3⟩
  · exact ⟨h.bound'.1.trans (congrArg Geometry.total (h.geometry'.trans hg'.symm)), h.bound'.2,
      h.bound'.3⟩

/-- Calls that end alike in each slot end alike in all. -/
theorem called (h : c.Alike s I c') {call : ℕ → Node → Attempt α × Node} {t : Terms}
    (hcall : ∀ i n n', I i n n' →
      let r := callNode t i (call i) n
      let r' := callNode t i (call i) n'
      r.1 = r'.1 ∧ I i r.2 r'.2) :
    (c.called t call).1 = (c'.called t call).1 ∧
      Cluster.Alike s I (c.called t call).2 (c'.called t call).2 := by
  refine ⟨List.ext_getElem? fun i => ?_, h.setting, h.setting', h.bound.called, h.bound'.called,
    fun i n n' hn hn' => ?_⟩
  · rw [h.bound.getElem?_called, h.bound'.getElem?_called]
    rcases h.slotNode?_cases i with ⟨hn, hn'⟩ | ⟨n, n', hn, hn', hI⟩
    · rw [hn, hn']
    · rw [hn, hn']
      exact congrArg some (hcall i n n' hI).1
  · rw [h.bound.slotNode?_called, Option.map_eq_some_iff] at hn
    rw [h.bound'.slotNode?_called, Option.map_eq_some_iff] at hn'
    obtain ⟨m, hm, rfl⟩ := hn
    obtain ⟨m', hm', rfl⟩ := hn'
    exact (hcall i m m' (h.nodes i m m' hm hm')).2

end Alike

end Cluster

namespace Op.Alike

variable {s : Setting} {I : ℕ → Node → Node → Prop}

theorem timed_cluster {name : String} {x x' : Op α} (h : Alike (Cluster.Alike s I) x x') :
    Alike (Cluster.Alike s I) (Op.timed name x) (Op.timed name x') :=
  h.timed fun _ _ j j' hc => hc.journal j j'

/-- Another codec for the same geometry changes nothing. -/
theorem setCodec {codec codec' : Codec} (hg : codec.geometry = s.geometry)
    (hg' : codec'.geometry = s.geometry) :
    Alike (Cluster.Alike s I) (Op.setCodec codec) (Op.setCodec codec') :=
  modifyCluster fun _ _ hc => hc.codec hg hg'

/-- **Calls of all slots end alike** if those of each slot do. -/
theorem callAll {label : String} {token : Token} {call : ℕ → Node → Attempt α × Node}
    (hcall : ∀ t i n n', I i n n' →
      let r := callNode t i (call i) n
      let r' := callNode t i (call i) n'
      r.1 = r'.1 ∧ I i r.2 r'.2) :
    Alike (Cluster.Alike s I) (Op.callAll label token call) (Op.callAll label token call) := by
  intro p p' hp hnow
  have hlimit : p.cluster.limit = p'.cluster.limit :=
    congrArg Setting.limit (hp.setting.trans hp.setting'.symm)
  obtain ⟨hsettled, hafter⟩ := hp.called (t := ⟨label, token, p.cluster.limit, p.now⟩) fun i n n' =>
    hcall _ i n n'
  have happly (p : Progress) : Op.callAll label token call p =
      let r := p.cluster.called ⟨label, token, p.cluster.limit, p.now⟩ call
      (.ok (r.1.map Settled.outcome), ⟨r.2, p.now + latest r.1⟩) := rfl
  rw [happly p, happly p', ← hlimit, ← hnow]
  refine ⟨?_, ?_, hafter⟩
  · exact congrArg (fun settled => Except.ok (settled.map Settled.outcome)) hsettled
  · exact congrArg (fun settled => p.now + latest settled) hsettled

end Op.Alike

end ErasureVault
