/-
  Connecting to the nodes of a configuration.

  * `Config.Accepted` are the configurations that validation accepts (`validate_eq_ok_iff`), by the
    word that the sum of the counts is; for these there is a setup of as many nodes as there are
    addresses (`exists_ofNodes_of_accepted`);
  * `Config.Valid` are those whose settings fit together. They are the same where the sum fits into
    a word (`accepted_iff_valid`), and there the setup has a cluster (`Setup.exists_cluster`);
  * `Connected connect slots s nodes s'`: connecting to the addresses of some slots one after the
    other, from the state `s`, gives the nodes, and leaves `s'`. So it goes for all slots, or for
    those in front of the first that fails (`Connected.or_fails`);
  * hence what becomes of a configuration: `ofConfigM_of_refused`, `ofConfigM_of_connected`,
    `ofConfigM_of_fails`; `ofConfig_eq_ok_iff` is for connecting without effects.
-/
import Mathlib.Data.Nat.Notation
import ErasureVault.Config.Basic

namespace ErasureVault

variable {σ : Type}

/-! ## Validation -/

namespace Config

/-- The settings of a configuration are what validation asks for; it takes the sum of the counts as
the word that it is. -/
structure Accepted (c : Config) : Prop where
  data_ne : c.dataShards ≠ 0
  parity_ne : c.parityShards ≠ 0
  total_le : (c.dataShards + c.parityShards).toNat ≤ 256
  length_nodes : c.nodes.length = (c.dataShards + c.parityShards).toNat
  limit_ne : c.slotTimeout ≠ some 0

variable {c : Config}

theorem counts_eq_ok_iff {n : Counts} :
    c.counts = .ok n ↔ Counts.ofWords c.dataShards c.parityShards = .ok n := by
  rw [counts]
  cases Counts.ofWords c.dataShards c.parityShards <;> simp

/-- **Validation decides what is accepted.** -/
theorem validate_eq_ok_iff : c.validate = .ok () ↔ c.Accepted := by
  rw [validate]
  cases hn : c.counts with
  | error e =>
    have hno : ¬ ∃ n, Counts.ofWords c.dataShards c.parityShards = .ok n := by
      rintro ⟨n, h⟩
      rw [counts_eq_ok_iff.2 h] at hn
      cases hn
    refine ⟨nofun, fun h => (hno ?_).elim⟩
    exact Counts.exists_ofWords_iff.2 ⟨h.data_ne, h.parity_ne, h.total_le⟩
  | ok n =>
    rw [counts_eq_ok_iff] at hn
    obtain ⟨hdata, hparity, hle⟩ := Counts.exists_ofWords_iff.1 ⟨n, hn⟩
    have htotal := Counts.total_of_ofWords hn
    simp only [bind, Except.bind, htotal]
    by_cases hlen : c.nodes.length = (c.dataShards + c.parityShards).toNat
    · by_cases hlimit : c.slotTimeout = some 0
      · simp only [hlen, hlimit, ne_eq, not_true_eq_false, if_true, if_false]
        exact ⟨nofun, fun h => (h.limit_ne hlimit).elim⟩
      · simp only [hlen, hlimit, ne_eq, not_true_eq_false, if_false]
        exact ⟨fun _ => ⟨hdata, hparity, hle, hlen, hlimit⟩, fun _ => rfl⟩
    · simp only [hlen, ne_eq, not_false_eq_true, if_true]
      exact ⟨nofun, fun h => (hlen h.length_nodes).elim⟩

end Config

/-! ## Setups of nodes -/

namespace Setup

variable {data parity : UInt64} {nodes : List (String × Node)} {u : Setup}

/-- Once the counts are accepted, as many nodes as the word says are set up. -/
theorem ofNodes_of_ofWords {n : Counts} (hn : Counts.ofWords data parity = .ok n)
    (hnodes : nodes.length = (data + parity).toNat) :
    ∃ u, ofNodes data parity nodes = .ok u ∧ u.counts = n ∧ u.slots.length = n.total.toNat := by
  have hlen : nodes.length = n.total.toNat := by rw [hnodes, Counts.total_of_ofWords hn]
  rw [ofNodes, hn]
  simp only [bind, Except.bind, hlen, ne_eq, not_true_eq_false, if_false]
  refine ⟨_, rfl, rfl, ?_⟩
  rw [List.length_map, List.length_zipIdx, hlen]

/-- **What is set up has the counts that are asked for, and as many slots as the word says.** -/
theorem ofNodes_ok (h : ofNodes data parity nodes = .ok u) :
    u.counts.data = data ∧ u.counts.parity = parity ∧ u.slots.length = u.counts.total.toNat := by
  cases hn : Counts.ofWords data parity with
  | error e =>
    rw [ofNodes, hn] at h
    cases h
  | ok n =>
    by_cases hnodes : nodes.length = (data + parity).toNat
    · obtain ⟨u', hu', rfl, hslots⟩ := ofNodes_of_ofWords hn hnodes
      obtain rfl := Except.ok.inj (h.symm.trans hu')
      obtain ⟨hdata, hparity⟩ := Counts.ofWords_eq_ok_iff.1 hn
      exact ⟨hdata, hparity, hslots⟩
    · rw [← Counts.total_of_ofWords hn] at hnodes
      rw [ofNodes, hn] at h
      simp only [bind, Except.bind, hnodes, ne_eq, not_false_eq_true, if_true] at h
      cases h

/-- Once a configuration is accepted, it does not fail for the number of its nodes. -/
theorem exists_ofNodes_of_accepted {c : Config} (hc : c.Accepted)
    (hnodes : nodes.length = c.nodes.length) :
    ∃ u, ofNodes c.dataShards c.parityShards nodes = .ok u := by
  obtain ⟨n, hn⟩ := Counts.exists_ofWords_iff.2 ⟨hc.data_ne, hc.parity_ne, hc.total_le⟩
  obtain ⟨u, h, -⟩ := ofNodes_of_ofWords hn (hnodes.trans hc.length_nodes)
  exact ⟨u, h⟩

end Setup

/-! ## Connecting -/

/-- Connecting to the addresses of some slots, one after the other, gives their nodes; the states
are those before and after. -/
inductive Connected (connect : ℕ → String → ExceptT Failure (StateM σ) Node) :
    List (String × ℕ) → σ → List Node → σ → Prop
  | nil (s : σ) : Connected connect [] s [] s
  | cons {address slot slots n nodes s s' s''} (h : connect slot address s = (.ok n, s'))
      (hrest : Connected connect slots s' nodes s'') :
      Connected connect ((address, slot) :: slots) s (n :: nodes) s''

namespace Connected

variable {connect : ℕ → String → ExceptT Failure (StateM σ) Node} {slots : List (String × ℕ)}
  {nodes : List Node} {s s' : σ}

/-- Either all slots are connected to, or there is a first that fails. -/
theorem or_fails (connect : ℕ → String → ExceptT Failure (StateM σ) Node)
    (slots : List (String × ℕ)) (s : σ) :
    (∃ nodes s', Connected connect slots s nodes s') ∨
      ∃ before address slot after nodes s₁ e s₂, slots = before ++ (address, slot) :: after ∧
        Connected connect before s nodes s₁ ∧ connect slot address s₁ = (.error e, s₂) := by
  induction slots generalizing s with
  | nil => exact Or.inl ⟨[], s, .nil s⟩
  | cons a slots ih =>
    obtain ⟨address, slot⟩ := a
    rcases h : connect slot address s with ⟨e | n, s'⟩
    · exact Or.inr ⟨[], address, slot, slots, [], s, e, s', rfl, .nil s, h⟩
    · rcases ih s' with ⟨nodes, s'', hrest⟩ |
        ⟨before, address', slot', after, nodes, s₁, e, s₂, rfl, hrest, he⟩
      · exact Or.inl ⟨n :: nodes, s'', .cons h hrest⟩
      · exact Or.inr
          ⟨_ :: before, address', slot', after, n :: nodes, s₁, e, s₂, rfl, .cons h hrest, he⟩

theorem length_eq (h : Connected connect slots s nodes s') : nodes.length = slots.length := by
  induction h with
  | nil => rfl
  | cons _ _ ih => rw [List.length_cons, List.length_cons, ih]

theorem bind_apply {α β : Type} (x : ExceptT Failure (StateM σ) α)
    (f : α → ExceptT Failure (StateM σ) β) (s : σ) :
    (x >>= f) s = match x s with
      | (.ok a, s') => f a s'
      | (.error e, s') => (.error e, s') := by
  simp only [Bind.bind, ExceptT.bind, ExceptT.mk, StateT.bind]
  rcases x s with ⟨_ | _, _⟩ <;> rfl

/-- Making the nodes of slots, with the addresses that they are at. -/
abbrev make (connect : ℕ → String → ExceptT Failure (StateM σ) Node) (a : String × ℕ) :
    ExceptT Failure (StateM σ) (String × Node) := do
  return (a.1, ← connect a.2 a.1)

theorem make_ok {a : String × ℕ} {n : Node} (h : connect a.2 a.1 s = (.ok n, s')) :
    make connect a s = (.ok (a.1, n), s') := by
  rw [make, bind_apply, h]
  rfl

theorem make_error {a : String × ℕ} {e : Failure} (h : connect a.2 a.1 s = (.error e, s')) :
    make connect a s = (.error e, s') := by
  rw [make, bind_apply, h]

/-- Slots that can be connected to are, and then the others. -/
theorem mapM_append (h : Connected connect slots s nodes s') (more : List (String × ℕ)) :
    ∃ made, made.length = slots.length ∧
      (slots ++ more).mapM (make connect) s = match more.mapM (make connect) s' with
        | (.ok others, s'') => (.ok (made ++ others), s'')
        | (.error e, s'') => (.error e, s'') := by
  induction h with
  | nil s =>
    refine ⟨[], rfl, ?_⟩
    rw [List.nil_append]
    rcases more.mapM (make connect) s with ⟨_ | _, _⟩ <;> rfl
  | @cons address slot slots n nodes s s' s'' h hrest ih =>
    obtain ⟨made, hmade, ih⟩ := ih
    refine ⟨(address, n) :: made, congrArg (· + 1) hmade, ?_⟩
    have hfirst : make connect (address, slot) s = (.ok (address, n), s') := make_ok h
    rw [List.cons_append, List.mapM_cons, bind_apply, hfirst]
    simp only
    rw [bind_apply, ih]
    rcases more.mapM (make connect) s'' with ⟨_ | _, _⟩ <;> rfl

/-- Every slot is connected to. -/
theorem mapM_ok (h : Connected connect slots s nodes s') :
    ∃ made, made.length = slots.length ∧ slots.mapM (make connect) s = (.ok made, s') := by
  obtain ⟨made, hmade, heq⟩ := h.mapM_append []
  rw [List.append_nil] at heq
  refine ⟨made, hmade, ?_⟩
  rw [heq, List.mapM_nil]
  exact congrArg (fun made => (Except.ok made, s')) (List.append_nil made)

/-- Nothing is connected to after the first failure. -/
theorem mapM_error {address : String} {slot : ℕ} {e : Failure} {s'' : σ}
    (h : Connected connect slots s nodes s') (he : connect slot address s' = (.error e, s''))
    (after : List (String × ℕ)) :
    (slots ++ (address, slot) :: after).mapM (make connect) s = (.error e, s'') := by
  obtain ⟨made, -, heq⟩ := h.mapM_append ((address, slot) :: after)
  have hfirst : make connect (address, slot) s' = (.error e, s'') := make_error he
  rw [heq, List.mapM_cons, bind_apply, hfirst]

/-- What leaves the state alone, one after the other, does so altogether. -/
theorem mapM_eq_of_pure {α β : Type} {f : α → Except Failure β}
    {f' : α → ExceptT Failure (StateM σ) β} (h : ∀ a, f' a s = (f a, s)) (l : List α) :
    l.mapM f' s = (l.mapM f, s) := by
  induction l with
  | nil => rfl
  | cons a l ih =>
    rw [List.mapM_cons, List.mapM_cons, bind_apply, h]
    cases f a with
    | error e => rfl
    | ok b =>
      simp only
      rw [bind_apply, ih]
      cases l.mapM f <;> rfl

theorem exists_ofExcept_iff {connect : ℕ → String → Except Failure Node} :
    (∃ nodes s', Connected (fun slot address => MonadExcept.ofExcept (connect slot address)) slots s
      nodes s') ↔ ∀ a ∈ slots, ∃ n, connect a.2 a.1 = .ok n := by
  induction slots with
  | nil => exact ⟨fun _ => nofun, fun _ => ⟨[], s, .nil s⟩⟩
  | cons a slots ih =>
    obtain ⟨address, slot⟩ := a
    rw [List.forall_mem_cons, ← ih]
    constructor
    · rintro ⟨nodes, s', h⟩
      obtain - | ⟨h, hrest⟩ := h
      cases hn : connect slot address with
      | error e =>
        rw [hn] at h
        cases congrArg Prod.fst h
      | ok n =>
        rw [hn] at h
        obtain rfl := (congrArg Prod.snd h : s = _)
        exact ⟨⟨n, rfl⟩, _, _, hrest⟩
    · rintro ⟨⟨n, hn⟩, nodes, s', hrest⟩
      exact ⟨n :: nodes, s', .cons (by rw [hn]; rfl) hrest⟩

end Connected

/-! ## Configurations -/

namespace Setup

variable {c : Config} {connect : ℕ → String → ExceptT Failure (StateM σ) Node} {s s' : σ}
  {nodes : List Node}

/-- A configuration that is not accepted is reported, and nothing is connected to. -/
theorem ofConfigM_of_refused {e : ConfigFailure} (hc : c.validate = .error e)
    (connect : ℕ → String → ExceptT Failure (StateM σ) Node) (s : σ) :
    ofConfigM c connect s = (.error (.misconfigured e.message), s) := by
  rw [ofConfigM, hc]
  rfl

theorem ofConfigM_of_accepted (hc : c.Accepted) (s : σ) :
    ofConfigM c connect s = match c.nodes.zipIdx.mapM (Connected.make connect) s with
      | (.ok made, s') => ((ofNodes c.dataShards c.parityShards made).map fun u =>
          { u with policy := c.policy, limit := c.slotTimeout.map UInt64.toNat }, s')
      | (.error e, s') => (.error e, s') := by
  rw [ofConfigM, Config.validate_eq_ok_iff.2 hc]
  simp only
  rw [Connected.bind_apply]
  rcases c.nodes.zipIdx.mapM (Connected.make connect) s with ⟨_ | made, s'⟩
  · rfl
  · simp only
    rw [Connected.bind_apply]
    cases ofNodes c.dataShards c.parityShards made <;> rfl

/-- **An accepted configuration whose nodes can all be connected to gives a setup** of its counts. -/
theorem ofConfigM_of_connected (hc : c.Accepted) (h : Connected connect c.nodes.zipIdx s nodes s') :
    ∃ u, ofConfigM c connect s = (.ok u, s') ∧ u.counts.data = c.dataShards ∧
      u.counts.parity = c.parityShards ∧ u.slots.length = u.counts.total.toNat := by
  obtain ⟨made, hmade, heq⟩ := h.mapM_ok
  rw [List.length_zipIdx] at hmade
  obtain ⟨u, hu⟩ := exists_ofNodes_of_accepted hc hmade
  have hcounts := ofNodes_ok hu
  refine ⟨{ u with policy := c.policy, limit := c.slotTimeout.map UInt64.toNat }, ?_, hcounts⟩
  rw [ofConfigM_of_accepted hc, heq]
  simp only [hu]
  rfl

/-- **The first address that cannot be connected to fails a configuration**, and the others are left
alone. -/
theorem ofConfigM_of_fails (hc : c.Accepted) {before after : List (String × ℕ)} {address : String}
    {slot : ℕ} {e : Failure} {s'' : σ} (hnodes : c.nodes.zipIdx = before ++ (address, slot) :: after)
    (h : Connected connect before s nodes s') (he : connect slot address s' = (.error e, s'')) :
    ofConfigM c connect s = (.error e, s'') := by
  rw [ofConfigM_of_accepted hc, hnodes, h.mapM_error he]

/-- A configuration gives a setup exactly if it is accepted and all its nodes can be connected to. -/
theorem ofConfigM_eq_ok_iff :
    (∃ u s', ofConfigM c connect s = (.ok u, s')) ↔
      c.Accepted ∧ ∃ nodes s', Connected connect c.nodes.zipIdx s nodes s' := by
  constructor
  · rintro ⟨u, s', h⟩
    cases hc : c.validate with
    | error e =>
      rw [ofConfigM_of_refused hc] at h
      cases h
    | ok _ =>
      have haccepted := Config.validate_eq_ok_iff.1 hc
      refine ⟨haccepted, ?_⟩
      rcases Connected.or_fails connect c.nodes.zipIdx s with
        hall | ⟨before, address, slot, after, nodes, s₁, e, s₂, hnodes, hbefore, he⟩
      · exact hall
      · rw [ofConfigM_of_fails haccepted hnodes hbefore he] at h
        cases h
  · rintro ⟨hc, nodes, s', h⟩
    obtain ⟨u, heq, -⟩ := ofConfigM_of_connected hc h
    exact ⟨u, s', heq⟩

/-- What a configuration gives has its counts, and as many slots as the word says. -/
theorem ofConfigM_ok {u : Setup} (h : ofConfigM c connect s = (.ok u, s')) :
    u.counts.data = c.dataShards ∧ u.counts.parity = c.parityShards ∧
      u.slots.length = u.counts.total.toNat := by
  obtain ⟨hc, nodes, s'', hall⟩ := ofConfigM_eq_ok_iff.1 ⟨u, s', h⟩
  obtain ⟨u', heq, hu⟩ := ofConfigM_of_connected hc hall
  obtain rfl := Except.ok.inj (congrArg Prod.fst (h.symm.trans heq))
  exact hu

/-- Without effects, connecting leaves the state alone. -/
theorem ofConfigM_ofExcept (c : Config) (connect : ℕ → String → Except Failure Node) (s : σ) :
    (ofConfigM c fun slot address => MonadExcept.ofExcept (connect slot address) :
      ExceptT Failure (StateM σ) Setup) s = (ofConfig c connect, s) := by
  have hmake (a : String × ℕ) :
      Connected.make (fun slot address => MonadExcept.ofExcept (connect slot address)) a s =
        (do return (a.1, ← connect a.2 a.1), s) := by
    rw [Connected.make, Connected.bind_apply]
    cases connect a.2 a.1 <;> rfl
  cases hc : c.validate with
  | error e =>
    rw [ofConfigM_of_refused hc, ofConfig, ofConfigM, hc]
    rfl
  | ok _ =>
    rw [ofConfigM_of_accepted (Config.validate_eq_ok_iff.1 hc), Connected.mapM_eq_of_pure hmake,
      ofConfig, ofConfigM, hc]
    simp only [bind, Except.bind]
    split
    · next made _ h =>
      obtain ⟨hmade, rfl⟩ := Prod.mk.inj h
      rw [hmade]
      simp only
      cases ofNodes c.dataShards c.parityShards made <;> rfl
    · next e _ h =>
      obtain ⟨hmade, rfl⟩ := Prod.mk.inj h
      rw [hmade]

/-- Without effects, a configuration gives a setup exactly if it is accepted and every one of its
addresses can be connected to. -/
theorem ofConfig_eq_ok_iff {connect : ℕ → String → Except Failure Node} :
    (∃ u, ofConfig c connect = .ok u) ↔
      c.Accepted ∧ ∀ a ∈ c.nodes.zipIdx, ∃ n, connect a.2 a.1 = .ok n := by
  have hrun := ofConfigM_ofExcept c connect ()
  constructor
  · rintro ⟨u, h⟩
    rw [h] at hrun
    obtain ⟨hc, hall⟩ := ofConfigM_eq_ok_iff.1 ⟨u, (), hrun⟩
    exact ⟨hc, Connected.exists_ofExcept_iff.1 hall⟩
  · rintro ⟨hc, hall⟩
    obtain ⟨u, s', h⟩ :=
      ofConfigM_eq_ok_iff.2 ⟨hc, Connected.exists_ofExcept_iff (s := ()).2 hall⟩
    exact ⟨u, congrArg Prod.fst (hrun.symm.trans h)⟩

end Setup

end ErasureVault
