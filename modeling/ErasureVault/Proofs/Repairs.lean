/-
  Repairs, step by step.

  * `Geometry.owedShard` is the shard of a slot that a stripe gives, once the block that the stripe
    gives was checked;
  * `Repairing` collects what is known of the nodes at each step of the repair of one key, and what
    each call makes of it. Hence everything that such a repair can do, `repairKey_steps`: the slot
    holds the key (`Repairing.Done.skipped`), its shard was written (`Repairing.Done.written`), or
    one of the steps failed (`Repairing.Failed`);
  * what holds of a whole repair follows from what each of its keys does (`repairKeys_of_steps`,
    `repair_of_steps`).
-/
import ErasureVault.Proofs.Consistent

namespace ErasureVault

open Function

/-- The shard of a slot that a stripe gives for a block of the given id and size, unless the block
that it gives has another id. -/
def Geometry.owedShard (g : Geometry) (slot : ℕ) (id : Digest) (size : ℕ) (s : Stripe) :
    Outcome Bytes := do
  let s' ← g.restored (if g.data ≤ slot then .everything else .data) size s
  let _ ← Block.ofParts id (g.payload size s')
  shardOf slot size s'

theorem Geometry.owedShard_eq_ok_iff {g : Geometry} {id : Digest} {slot size : ℕ} {s : Stripe}
    {x : Bytes} :
    g.owedShard slot id size s = .ok x ↔
      ∃ s' b, g.restored (if g.data ≤ slot then .everything else .data) size s = .ok s' ∧
        Block.ofParts id (g.payload size s') = .ok b ∧ shardOf slot size s' = .ok x := by
  unfold owedShard
  constructor
  · intro h
    cases hs' : g.restored (if g.data ≤ slot then .everything else .data) size s with
    | error e => simp [hs', bind, Except.bind] at h
    | ok s' =>
      simp only [hs', bind, Except.bind] at h
      cases hb : Block.ofParts id (g.payload size s') with
      | error e => simp [hb] at h
      | ok b => exact ⟨s', b, rfl, hb, by simpa [hb] using h⟩
  · rintro ⟨s', b, hs', hb, hx⟩
    simp only [hs', bind, Except.bind, hb, hx]

namespace Stripe.Of

variable {g : Geometry} {b : Block} {s : Stripe} {slot : ℕ}

/-- Enough shards of a block are rebuilt from. -/
theorem exists_restored (h : s.Of g b) (hp : 0 < b.size → g.data ≤ s.present.length)
    (extent : Geometry.Extent) : ∃ s', g.restored extent b.size s = .ok s' := by
  rcases Nat.eq_zero_or_pos b.size with h0 | hpos
  · exact ⟨_, h.restored_of_empty h0 extent⟩
  · exact ⟨_, h.restored_of_enough (hp hpos) extent⟩

theorem covers_slot (g : Geometry) (slot : ℕ) :
    (if g.data ≤ slot then Geometry.Extent.everything else .data).Covers g slot := by
  split
  · exact trivial
  · exact Nat.lt_of_not_le ‹_›

/-- **What a slot is owed is its shard of the block.** -/
theorem owedShard_ok (h : s.Of g b) (hslot : slot < g.total) {x : Bytes}
    (hx : g.owedShard slot b.id b.size s = .ok x) : (g.encode b.data)[slot]? = some x := by
  obtain ⟨s', b', hs', -, hx⟩ := Geometry.owedShard_eq_ok_iff.1 hx
  obtain ⟨y, hy, hencode⟩ := (h.restored_ok hs').2 slot hslot (covers_slot g slot)
  rw [hx, Except.ok.injEq] at hy
  exact hy ▸ hencode

theorem exists_owedShard (h : s.Of g b) (hp : 0 < b.size → g.data ≤ s.present.length)
    (hslot : slot < g.total) :
    ∃ x, g.owedShard slot b.id b.size s = .ok x ∧ (g.encode b.data)[slot]? = some x := by
  obtain ⟨s', hs'⟩ := h.exists_restored hp (if g.data ≤ slot then .everything else .data)
  obtain ⟨hpayload, hshard⟩ := h.restored_ok hs'
  obtain ⟨x, hx, hencode⟩ := hshard slot hslot (covers_slot g slot)
  refine ⟨x, Geometry.owedShard_eq_ok_iff.2 ⟨s', b, hs', ?_, hx⟩, hencode⟩
  exact Block.ofParts_eq_ok_iff.2 ⟨rfl, hpayload.symm⟩

end Stripe.Of

/-! ## One key -/

/-- The stripe `s` was collected for the block of the given id, on whose size the slots agree. -/
structure Gathered (g : Geometry) (token : Token) (R : ℕ → Outcome SizeRecord → Prop)
    (S : ℕ → Outcome Bytes → Prop) (id : Digest) (size : ℕ) (s : Stripe) : Prop where
  agreed : Agreed g id.key token R (.ok size)
  collected : Collected g size S s

/-- What is known of the nodes while a key is repaired, and what each call makes of it. -/
structure Repairing (l : Layout) (token : Token) (slot : ℕ) (key : String) where
  before : ℕ → Node → Prop
  /-- The slot that is repaired, after its answer whether it holds the key. -/
  probed : Outcome Bytes → Node → Prop
  /-- What the slots answer when asked for the size. -/
  record : ℕ → Outcome SizeRecord → Prop
  sized : ℕ → Node → Prop
  /-- What the slots answer when asked for their shards. -/
  shard : ℕ → Outcome Bytes → Prop
  fetched : ℕ → Node → Prop
  /-- The slot that is repaired, after its answer whether it stored its shard. -/
  stored : Outcome Unit → Node → Prop
  probe : ∀ start n, before slot n →
    let s := callNode ⟨"get_meta", token, l.limit, start⟩ slot (Node.getRecord key) n
    probed s.1.outcome s.2
  size : ∀ e start i n, i < l.geometry.total → update before slot (probed (.error e)) i n →
    let s := callNode ⟨"get_meta", token, l.limit, start⟩ i (Node.getSize key) n
    sized i s.2 ∧ record i s.1.outcome
  fetch : ∀ start i n, i < l.geometry.total → sized i n →
    let s := callNode ⟨"get", token, l.limit, start⟩ i (fun node =>
      if some slot = some i then (⟨0, .value []⟩, node) else node.get key) n
    fetched i s.2 ∧ shard i s.1.outcome
  put : ∀ id n s x r, key = id.key → Gathered l.geometry token record shard id n s →
    l.geometry.owedShard slot id n s = .ok x → SizeRecord.ofSize n = .ok r → ∀ start node,
    (if l.geometry.shardLength n = 0 then sized else fetched) slot node →
    let s := callNode ⟨"put", token, l.limit, start⟩ slot (Node.put key r.encode x) node
    stored s.1.outcome s.2

namespace Repairing

variable {l : Layout} {token : Token} {slot : ℕ} {key : String}

/-- What is known once the shards of a block of `n` bytes were collected. -/
def read (p : Repairing l token slot key) (n : ℕ) : ℕ → Node → Prop :=
  if l.geometry.shardLength n = 0 then p.sized else p.fetched

/-- The ways in which the repair of a key ends well. -/
inductive Done (p : Repairing l token slot key) : Option ℕ → Cluster → Prop
  /-- The slot holds the key. -/
  | skipped {c : Cluster} (record : Bytes)
      (hc : c.Each l (update p.before slot (p.probed (.ok record)))) : p.Done none c
  /-- The shard of the slot was written. -/
  | written {c : Cluster} (id : Digest) (n : ℕ) (s : Stripe) (x : Bytes) (r : SizeRecord)
      (hkey : key = id.key) (hs : Gathered l.geometry token p.record p.shard id n s)
      (hx : l.geometry.owedShard slot id n s = .ok x) (hr : SizeRecord.ofSize n = .ok r)
      (hc : c.Each l (update (p.read n) slot (p.stored (.ok ())))) : p.Done (some x.length) c

/-- The ways in which the repair of a key fails. -/
inductive Failed (p : Repairing l token slot key) (e : Failure) (c : Cluster) : Prop
  /-- No slot was asked for the block. -/
  | unasked (e' : Failure) (h : Digest.ofKey key = .error e ∨ e.Early l.geometry token)
      (hc : c.Each l (update p.before slot (p.probed (.error e'))))
  /-- The slots do not agree on a size. -/
  | unsized (id : Digest) (hkey : key = id.key)
      (h : Agreed l.geometry id.key token p.record (.error e)) (hc : c.Each l p.sized)
  /-- The caller gave up while the shards were collected. -/
  | givenUp (h : e = .canceledByCaller ∧ token ≠ .never) (hc : c.Each l p.fetched)
  /-- The shards do not give what the slot is owed. -/
  | unfound (id : Digest) (n : ℕ) (s : Stripe) (hkey : key = id.key)
      (hs : Gathered l.geometry token p.record p.shard id n s)
      (h : l.geometry.owedShard slot id n s = .error e ∨ SizeRecord.ofSize n = .error e)
      (hc : c.Each l (p.read n))
  /-- The slot did not store its shard, or did not say so. -/
  | unstored (id : Digest) (n : ℕ) (s : Stripe) (x : Bytes) (r : SizeRecord) (hkey : key = id.key)
      (hs : Gathered l.geometry token p.record p.shard id n s)
      (hx : l.geometry.owedShard slot id n s = .ok x) (hr : SizeRecord.ofSize n = .ok r)
      (hc : c.Each l (update (p.read n) slot (p.stored (.error e))))

end Repairing

namespace Op.Triple

variable {l : Layout} {token : Token} {slot : ℕ}

/-- **What the repair of a key can do.** -/
theorem repairKey_steps {key : String} (p : Repairing l token slot key)
    (hslot : slot < l.geometry.total) :
    Triple (Cluster.Each l p.before) (Cluster.repairKey token slot key) p.Done p.Failed := by
  unfold Cluster.repairKey Cluster.repairKeyBy Lookups.plain
  refine cluster.bind fun c₀ => of_each ?_
  rintro _ ⟨rfl, hc₀⟩
  obtain ⟨target, htarget⟩ : ∃ target, l.slots[slot]? = some target := by
    rw [← hc₀.length_slots, hc₀.slots] at hslot
    exact ⟨_, List.getElem?_eq_getElem hslot⟩
  have hbinding : c₀.bindingAt slot = .ok target :=
    Cluster.bindingAt_eq_ok_iff.2 (hc₀.slots ▸ htarget)
  simp only [hc₀.geometry, hbinding]
  refine bind (ofOutcome (Q := fun b c => b = target ∧ c = c₀) (fun b c hc h =>
    ⟨(Except.ok.inj h).symm, hc⟩) fun _ _ _ h => by simp at h) fun b => of_each ?_
  rintro _ ⟨rfl, rfl⟩
  refine bind ((callSlot_each htarget p.probe).each hc₀) fun held => ?_
  cases held with
  | ok record => exact pure fun c hc => .skipped record hc
  | error e' =>
  simp only [Outcome.isOk, Bool.false_eq_true, if_false]
  refine bind (ofOutcome (Q := fun id c => key = id.key ∧
    c.Each l (update p.before slot (p.probed (.error e')))) (fun id c hc h =>
      ⟨Digest.ofKey_eq_ok_iff.1 h, hc⟩) fun e c hc h => .unasked e' (Or.inl h) hc)
    fun id => of_each ?_
  rintro c₁ ⟨rfl, hc₁⟩
  refine bind (((agreedSize_each (p.size e')).each hc₁).imp_error fun e c h => ?_)
    fun n => of_each ?_
  · rcases h with ⟨h, hc⟩ | ⟨h, hc⟩
    · exact .unasked e' (Or.inr h) hc
    · exact .unsized id rfl h hc
  rintro c₂ ⟨hagreed, hc₂⟩
  refine bind (((collect_each p.fetch).each hc₂).imp_error fun e c h => .givenUp h.1 h.2)
    fun s => of_each ?_
  rintro c₃ ⟨hcollected, hc₃⟩
  have hs : Gathered l.geometry token p.record p.shard id n s := ⟨hagreed, hcollected⟩
  set extent : Geometry.Extent := if l.geometry.data ≤ slot then .everything else .data with hextent
  have howed : l.geometry.owedShard slot id n s = (l.geometry.restored extent n s).bind fun s' =>
      (Block.ofParts id (l.geometry.payload n s')).bind fun _ => shardOf slot n s' := rfl
  refine bind (((restore_each extent n s).each hc₃).imp_error fun e c h => ?_) fun s' => of_each ?_
  · exact .unfound id n s rfl hs (Or.inl (by rw [howed, h.1]; rfl)) h.2
  rintro c₄ ⟨hs', hc₄⟩
  rw [hs'] at howed
  refine bind (ofOutcome (Q := fun b c => Block.ofParts id (l.geometry.payload n s') = .ok b ∧
    c = c₄) (fun b c hc h => ⟨h, hc⟩) fun e c hc h => ?_) fun b => of_each ?_
  · exact .unfound id n s rfl hs (Or.inl (by rw [howed, Except.bind, h]; rfl)) (hc ▸ hc₄)
  rintro _ ⟨hb, rfl⟩
  have hshard : l.geometry.owedShard slot id n s = shardOf slot n s' := by
    rw [howed, Except.bind, hb]
    rfl
  rw [← hshard]
  refine bind (ofOutcome (Q := fun x c => l.geometry.owedShard slot id n s = .ok x ∧
    c.Each l (p.read n)) (fun x c hc h => ⟨h, hc ▸ hc₄⟩) fun e c hc h =>
      .unfound id n s rfl hs (Or.inl h) (hc ▸ hc₄)) fun x => of_each ?_
  rintro c₅ ⟨hx, hc₅⟩
  refine bind (ofOutcome (Q := fun r c => SizeRecord.ofSize n = .ok r ∧ c.Each l (p.read n))
    (fun r c hc h => ⟨h, hc ▸ hc₅⟩) fun e c hc h =>
      .unfound id n s rfl hs (Or.inr h) (hc ▸ hc₅)) fun r => of_each ?_
  rintro c₆ ⟨hr, hc₆⟩
  refine bind ((callSlot_each htarget (p.put id n s x r rfl hs hx hr)).each hc₆) fun stored => ?_
  cases stored with
  | ok u =>
    refine ofOutcome (fun w c hc h => ?_) fun _ _ _ h => by simp [Except.map] at h
    exact Except.ok.inj h ▸ .written id n s x r rfl hs hx hr hc
  | error e =>
    refine ofOutcome (fun _ _ _ h => by simp [Except.map] at h) fun e' c hc h => ?_
    exact Except.error.inj h ▸ .unstored id n s x r rfl hs hx hr hc

/-- What holds of the nodes all along holds after the repair of a key, however it ends. -/
theorem repairKey_preserves {key : String} (p : Repairing l token slot key) {I : ℕ → Node → Prop}
    (hbefore : p.before = I) (hsized : p.sized = I) (hfetched : p.fetched = I)
    (hprobed : ∀ o, p.probed o = I slot) (hstored : ∀ o, p.stored o = I slot)
    (hslot : slot < l.geometry.total) :
    Preserves (Cluster.Each l I) (Cluster.repairKey token slot key) := by
  have hread (n : ℕ) : p.read n = I := by
    rw [Repairing.read, hsized, hfetched, ite_self]
  refine (repairKey_steps p hslot).conseq (fun c hc => hbefore ▸ hc) (fun w c hc => ?_)
    fun e c hc => ?_
  · cases hc with
    | skipped record hc => rwa [hbefore, hprobed, update_eq_self] at hc
    | written _ n _ _ _ _ _ _ _ hc => rwa [hread, hstored, update_eq_self] at hc
  · cases hc with
    | unasked _ _ hc => rwa [hbefore, hprobed, update_eq_self] at hc
    | unsized _ _ _ hc => exact hsized ▸ hc
    | givenUp _ hc => exact hfetched ▸ hc
    | unfound _ n _ _ _ _ hc => exact hread n ▸ hc
    | unstored _ n _ _ _ _ _ _ _ hc => rwa [hread, hstored, update_eq_self] at hc

/-! ## Many keys -/

/-- **What holds after the repair of many keys**, if each key keeps it up. -/
theorem repairKeys_of_steps {I : List String → RepairReport → Cluster → Prop}
    {E : Failure → Cluster → Prop} {items : List (Except Failure String)}
    (hstep : ∀ done key rest r, items = done.map .ok ++ .ok key :: rest →
      Triple (I done r) (Cluster.repairKey token slot key)
        (fun written => I (done ++ [key]) (r.add written)) E)
    (hscan : ∀ e done rest, items = done.map .ok ++ .error e :: rest → ∀ r c, I done r c → E e c)
    (htoken : token ≠ .never → ∀ done r c, I done r c → E .canceledByCaller c)
    (hcount : ∀ done r c j, I done r c → I done r { c with journal := j }) :
    Triple (I [] .empty) (Cluster.repairKeys token slot items .empty)
      (fun r c => ∃ keys, items = keys.map .ok ∧ I keys r c) E := by
  suffices h : ∀ rest done r, items = done.map .ok ++ rest →
      Triple (I done r) (Cluster.repairKeys token slot rest r)
        (fun r c => ∃ keys, items = keys.map .ok ∧ I keys r c) E from h items [] .empty rfl
  intro rest
  induction rest with
  | nil =>
    intro done r hdone
    exact pure fun c hc => ⟨done, by rw [hdone, List.append_nil], hc⟩
  | cons item rest ih =>
    intro done r hdone
    unfold Cluster.repairKeys Cluster.repairKeysBy
    refine bind (checkToken token fun c hc h => htoken h done r c hc) fun _ => ?_
    cases item with
    | error e =>
      refine bind (ofOutcome (Q := fun _ _ => False) (fun _ _ _ h => by simp at h)
        fun e' c hc h => ?_) fun _ _ h => h.elim
      obtain rfl := Except.error.inj h
      exact hscan e done rest hdone r c hc
    | ok key =>
      refine bind (ofOutcome (Q := fun k c => k = key ∧ I done r c)
        (fun k c hc h => ⟨(Except.ok.inj h).symm, hc⟩) fun _ _ _ h => by simp at h)
        fun k => of_each ?_
      rintro c₁ ⟨rfl, hc₁⟩
      refine bind ((hstep done k rest r hdone).each hc₁) fun written => ?_
      refine bind (modifyCluster (Q := fun _ => I (done ++ [k]) (r.add written))
        fun c hc => hcount _ _ c _ hc) fun _ => ih _ _ ?_
      rw [hdone, List.map_append, List.append_assoc]
      rfl

/-- Listing the keys of a slot is only counted. -/
theorem scanSlot_each {I : ℕ → Node → Prop} {source : ℕ} {E : Failure → Cluster → Prop}
    (hsource : source < l.geometry.total) :
    Triple (Cluster.Each l I) (Cluster.scanSlot source)
      (fun items c => ∃ n, I source n ∧ items = n.scan ∧ c.Each l (update I source (· = n.tick)))
      E := by
  unfold Cluster.scanSlot
  refine cluster.bind fun c₀ => of_each ?_
  rintro _ ⟨rfl, hc₀⟩
  obtain ⟨b, hb⟩ : ∃ b, l.slots[source]? = some b := by
    rw [← hc₀.length_slots, hc₀.slots] at hsource
    exact ⟨_, List.getElem?_eq_getElem hsource⟩
  have hb₀ : c₀.slots[source]? = some b := hc₀.slots ▸ hb
  have hlt := hc₀.bound.node_lt b (List.mem_of_getElem? hb₀)
  have hset : c₀.modifyNode b.node Node.tick =
      { c₀ with nodes := c₀.nodes.set b.node (c₀.node b.node).tick } := by
    rw [Cluster.modifyNode, List.modify_eq_set_getElem?, List.getElem?_eq_getElem hlt, Cluster.node,
      List.getD_eq_getElem?_getD, List.getElem?_eq_getElem hlt]
    rfl
  simp only [hb₀]
  refine bind (modifyCluster (Q := fun _ c => c.Each l (update I source
    (· = (c₀.node b.node).tick))) fun c hc => ?_) fun _ => pure fun c hc => ?_
  · rw [hc, hset]
    exact hc₀.set hb rfl
  · exact ⟨_, hc₀.nodes source _ (Cluster.slotNode?_eq_some_iff.2 ⟨b, hb₀, rfl⟩), rfl, hc⟩

/-- **What holds after a repair**, if it holds after the repair of the keys that were listed. -/
theorem repair_of_steps {I : ℕ → Node → Prop} {source : ℕ} {Q : RepairReport → Cluster → Prop}
    {E : Failure → Cluster → Prop}
    (hrange : l.geometry.total ≤ source ∨ l.geometry.total ≤ slot → ∀ e c, c.Each l I → E e c)
    (hkeys : source < l.geometry.total → slot < l.geometry.total → ∀ n, I source n →
      Triple (Cluster.Each l (update I source (· = n.tick)))
        (Cluster.repairKeys token slot n.scan .empty) Q E)
    (hQ : ∀ r c j, Q r c → Q r { c with journal := j })
    (hE : ∀ e c j, E e c → E e { c with journal := j }) :
    Triple (Cluster.Each l I) (Cluster.repair token source slot) Q E := by
  unfold Cluster.repair Cluster.repairBy
  refine timed ?_ hQ hE
  refine cluster.bind fun c₀ => of_each ?_
  rintro _ ⟨rfl, hc₀⟩
  rw [hc₀.length_slots]
  by_cases hsource : l.geometry.total ≤ source
  · simp only [hsource, if_true]
    exact throw_bind fun c hc => hrange (Or.inl hsource) _ c (hc ▸ hc₀)
  by_cases hslot : l.geometry.total ≤ slot
  · simp only [hsource, hslot, if_true, if_false]
    exact throw_bind fun c hc => hrange (Or.inr hslot) _ c (hc ▸ hc₀)
  simp only [hsource, hslot, if_false]
  refine bind ((scanSlot_each (Nat.lt_of_not_le hsource)).each hc₀) fun items => of_each ?_
  rintro c ⟨n, hn, rfl, hc⟩
  exact (hkeys (Nat.lt_of_not_le hsource) (Nat.lt_of_not_le hslot) n hn).each hc

/-- What holds of the nodes all along holds after a repair, however it ends. -/
theorem repair_preserves {I : ℕ → Node → Prop} (source : ℕ) (htick : ∀ i n, I i n → I i n.tick)
    (hkey : slot < l.geometry.total → ∀ key,
      Preserves (Cluster.Each l I) (Cluster.repairKey token slot key)) :
    Preserves (Cluster.Each l I) (Cluster.repair token source slot) := by
  refine repair_of_steps (fun _ _ _ hc => hc) (fun _ hslot n hn => ?_) (fun _ _ j hc => hc.journal j)
    fun _ _ j hc => hc.journal j
  refine (repairKeys_of_steps (I := fun _ _ => Cluster.Each l I) (fun _ key _ _ _ => hkey hslot key)
    (fun _ _ _ _ _ _ hc => hc) (fun _ _ _ _ hc => hc) fun _ _ _ j hc => hc.journal j).conseq
    (fun c hc => hc.mono fun i n' hn' => ?_) (fun _ _ h => ?_) fun _ _ hc => hc
  · by_cases hi : i = source
    · subst hi
      rw [update_self] at hn'
      exact hn' ▸ htick i n hn
    · rwa [update_of_ne hi] at hn'
  · obtain ⟨_, -, hc⟩ := h
    exact hc

end Op.Triple

end ErasureVault
