/-
  Tables — finite maps from byte strings, in the order of their keys.

  * `Table β` lists keys with their values, the keys ascending byte by byte;
  * `Table.get?`, `Table.insert` and `Table.erase` look up, set and remove a key (`get?_empty`,
    `get?_insert`, `get?_erase`), and `Table.ext_get?`: a table is what it looks up;
  * `Table.total f` adds up `f` over the values (`total_insert`, `total_erase`).
-/
import ErasureVault.Bytes

namespace ErasureVault

/-- A map from byte strings, its keys ascending. -/
structure Table (β : Type) where
  entries : List (Bytes × β)
  sorted : entries.Pairwise fun p q => p.1 < q.1

namespace Table

variable {β : Type}

/-! ## Ordered lists -/

def lookup (k : Bytes) : List (Bytes × β) → Option β
  | [] => none
  | (l, v) :: rest => if k < l then none else if k = l then some v else lookup k rest

def place (k : Bytes) (v : β) : List (Bytes × β) → List (Bytes × β)
  | [] => [(k, v)]
  | (l, w) :: rest =>
    if k < l then (k, v) :: (l, w) :: rest
    else if k = l then (k, v) :: rest
    else (l, w) :: place k v rest

def remove (k : Bytes) : List (Bytes × β) → List (Bytes × β)
  | [] => []
  | (l, w) :: rest =>
    if k < l then (l, w) :: rest else if k = l then rest else (l, w) :: remove k rest

theorem lt_of_not_lt_of_ne {k l : Bytes} (h : ¬ k < l) (hne : k ≠ l) : l < k :=
  Std.lt_of_le_of_ne (Std.not_lt.1 h) (Ne.symm hne)

theorem mem_of_mem_place {k : Bytes} {v : β} {l : List (Bytes × β)} {p : Bytes × β}
    (h : p ∈ place k v l) : p = (k, v) ∨ p ∈ l := by
  fun_induction place k v l <;> grind

theorem mem_of_mem_remove {k : Bytes} {l : List (Bytes × β)} {p : Bytes × β}
    (h : p ∈ remove k l) : p ∈ l := by
  fun_induction remove k l <;> grind

theorem sorted_place {k : Bytes} {v : β} {l : List (Bytes × β)}
    (h : l.Pairwise fun p q => p.1 < q.1) : (place k v l).Pairwise fun p q => p.1 < q.1 := by
  fun_induction place k v l with
  | case1 => simp
  | case2 l w rest hk =>
    refine List.pairwise_cons.2 ⟨fun q hq => ?_, h⟩
    rcases List.mem_cons.1 hq with rfl | hq
    · exact hk
    · exact List.lt_trans hk ((List.pairwise_cons.1 h).1 q hq)
  | case3 w rest _ =>
    exact List.pairwise_cons.2 ⟨(List.pairwise_cons.1 h).1, (List.pairwise_cons.1 h).2⟩
  | case4 l w rest hk hne ih =>
    refine List.pairwise_cons.2 ⟨fun q hq => ?_, ih (List.pairwise_cons.1 h).2⟩
    rcases mem_of_mem_place hq with rfl | hq
    · exact lt_of_not_lt_of_ne hk hne
    · exact (List.pairwise_cons.1 h).1 q hq

theorem sorted_remove {k : Bytes} {l : List (Bytes × β)}
    (h : l.Pairwise fun p q => p.1 < q.1) : (remove k l).Pairwise fun p q => p.1 < q.1 := by
  fun_induction remove k l with
  | case1 => exact h
  | case2 => exact h
  | case3 => exact (List.pairwise_cons.1 h).2
  | case4 l w rest _ _ ih =>
    exact List.pairwise_cons.2
      ⟨fun q hq => (List.pairwise_cons.1 h).1 q (mem_of_mem_remove hq), ih (List.pairwise_cons.1 h).2⟩

/-- The sum of `f` over the values. -/
def sumOf (f : β → Nat) (es : List (Bytes × β)) : Nat :=
  es.foldr (fun p n => f p.2 + n) 0

/-! ## Tables -/

def empty : Table β :=
  ⟨[], .nil⟩

def get? (t : Table β) (k : Bytes) : Option β :=
  lookup k t.entries

def insert (t : Table β) (k : Bytes) (v : β) : Table β :=
  ⟨place k v t.entries, sorted_place t.sorted⟩

def erase (t : Table β) (k : Bytes) : Table β :=
  ⟨remove k t.entries, sorted_remove t.sorted⟩

def keys (t : Table β) : List Bytes :=
  t.entries.map Prod.fst

def size (t : Table β) : Nat :=
  t.entries.length

def total (f : β → Nat) (t : Table β) : Nat :=
  sumOf f t.entries

@[simp] theorem get?_empty (k : Bytes) : (empty : Table β).get? k = none := rfl

theorem lookup_place (k l : Bytes) (v : β) (es : List (Bytes × β)) :
    lookup l (place k v es) = if l = k then some v else lookup l es := by
  fun_induction place k v es with
  | case1 => grind [lookup]
  | case2 m w rest hk =>
    have : l < k → l < m := fun h => List.lt_trans h hk
    grind [lookup]
  | case3 w rest _ => grind [lookup]
  | case4 m w rest hk hne ih =>
    have : l = k → ¬ l < m := fun h => h ▸ hk
    grind [lookup]

theorem lookup_eq_none_of_lt {k : Bytes} {es : List (Bytes × β)}
    (h : ∀ p ∈ es, k < p.1) : lookup k es = none := by
  cases es with
  | nil => rfl
  | cons p rest => rw [lookup, if_pos (h p (by simp))]

theorem lookup_remove {es : List (Bytes × β)} (k l : Bytes)
    (h : es.Pairwise fun p q => p.1 < q.1) :
    lookup l (remove k es) = if l = k then none else lookup l es := by
  fun_induction remove k es with
  | case1 => simp [lookup]
  | case2 m w rest hk => grind [lookup]
  | case3 w rest _ =>
    have hlt := (List.pairwise_cons.1 h).1
    by_cases hl : l = k
    · rw [if_pos hl, hl]; exact lookup_eq_none_of_lt hlt
    · by_cases hlk : l < k
      · rw [lookup_eq_none_of_lt fun p hp => List.lt_trans hlk (hlt p hp)]
        grind [lookup]
      · grind [lookup]
  | case4 m w rest hk hne ih =>
    have ih := ih (List.pairwise_cons.1 h).2
    have : l = k → ¬ l < m := fun h => h ▸ hk
    grind [lookup]

/-- A table looks up what was inserted last. -/
theorem get?_insert (t : Table β) (k l : Bytes) (v : β) :
    (t.insert k v).get? l = if l = k then some v else t.get? l :=
  lookup_place k l v t.entries

/-- A table does not look up what was erased. -/
theorem get?_erase (t : Table β) (k l : Bytes) :
    (t.erase k).get? l = if l = k then none else t.get? l :=
  lookup_remove k l t.sorted

theorem lookup_eq_some_iff {k : Bytes} {v : β} {es : List (Bytes × β)}
    (h : es.Pairwise fun p q => p.1 < q.1) : lookup k es = some v ↔ (k, v) ∈ es := by
  induction es with
  | nil => simp [lookup]
  | cons p rest ih =>
    obtain ⟨l, w⟩ := p
    obtain ⟨hlt, hrest⟩ := List.pairwise_cons.1 h
    have ih := ih hrest
    have hirr : ¬ k < k := List.lt_irrefl k
    have hl : (k, v) ∈ rest → l < k := fun hm => hlt _ hm
    have hkl : k < l → ¬ l < k := fun h h' => hirr (List.lt_trans h h')
    grind [lookup]

theorem mem_keys_iff {t : Table β} {k : Bytes} : k ∈ t.keys ↔ ∃ v, t.get? k = some v := by
  simp only [keys, List.mem_map, get?, lookup_eq_some_iff t.sorted]
  constructor
  · rintro ⟨⟨_, v⟩, h, rfl⟩; exact ⟨v, h⟩
  · rintro ⟨v, h⟩; exact ⟨(k, v), h, rfl⟩

theorem eq_of_lookup_eq {es fs : List (Bytes × β)} (he : es.Pairwise fun p q => p.1 < q.1)
    (hf : fs.Pairwise fun p q => p.1 < q.1) (h : ∀ k, lookup k es = lookup k fs) : es = fs := by
  induction es generalizing fs with
  | nil =>
    cases fs with
    | nil => rfl
    | cons q fs => simpa [lookup, List.lt_irrefl] using h q.1
  | cons p es ih =>
    cases fs with
    | nil => simpa [lookup, List.lt_irrefl] using h p.1
    | cons q fs =>
      obtain ⟨hp, he⟩ := List.pairwise_cons.1 he
      obtain ⟨hq, hrest⟩ := List.pairwise_cons.1 hf
      have hpq : p = q := by
        have h1 := h p.1
        have h2 := h q.1
        have := @lt_of_not_lt_of_ne p.1 q.1
        have := List.lt_irrefl p.1
        have := List.lt_irrefl q.1
        obtain ⟨l, v⟩ := p
        obtain ⟨m, w⟩ := q
        grind [lookup]
      subst hpq
      refine congrArg _ (ih he hrest fun k => ?_)
      by_cases hk : p.1 < k
      · have hlt : ¬ k < p.1 := fun h => List.lt_irrefl k (List.lt_trans h hk)
        have hne : k ≠ p.1 := fun h => List.lt_irrefl k (by rw [← h] at hk; exact hk)
        have := h k
        grind [lookup]
      · have hle : ∀ r, p.1 < r → k < r := fun r hr => by
          by_cases hkp : k = p.1
          · exact hkp ▸ hr
          · exact List.lt_trans (lt_of_not_lt_of_ne hk (Ne.symm hkp)) hr
        rw [lookup_eq_none_of_lt fun r hr => hle _ (hp r hr),
          lookup_eq_none_of_lt fun r hr => hle _ (hq r hr)]

theorem ext_get? {t u : Table β} (h : ∀ k, t.get? k = u.get? k) : t = u := by
  obtain ⟨es, hs⟩ := t
  obtain ⟨fs, hf⟩ := u
  have : es = fs := eq_of_lookup_eq hs hf h
  subst this
  rfl

/-! ## Sums -/

theorem sum_place (f : β → Nat) (k : Bytes) (v : β) (es : List (Bytes × β)) :
    sumOf f (place k v es) + (lookup k es).elim 0 f = sumOf f es + f v := by
  fun_induction place k v es with
  | case1 => simp [lookup, sumOf]
  | case2 m w rest hk => simp [lookup, hk, sumOf]; omega
  | case3 w rest hk => simp [lookup, hk, sumOf]; omega
  | case4 m w rest hk hne ih => simp [lookup, hk, hne, sumOf] at ih ⊢; omega

theorem sum_remove (f : β → Nat) (k : Bytes) (es : List (Bytes × β)) :
    sumOf f (remove k es) + (lookup k es).elim 0 f = sumOf f es := by
  fun_induction remove k es with
  | case1 => simp [lookup, sumOf]
  | case2 m w rest hk => simp [lookup, hk]
  | case3 w rest hk => simp [lookup, hk, sumOf]; omega
  | case4 m w rest hk hne ih => simp [lookup, hk, hne, sumOf] at ih ⊢; omega

/-- Inserting takes the old value from a sum and adds the new one. -/
theorem total_insert (f : β → Nat) (t : Table β) (k : Bytes) (v : β) :
    (t.insert k v).total f + (t.get? k).elim 0 f = t.total f + f v :=
  sum_place f k v t.entries

theorem total_erase (f : β → Nat) (t : Table β) (k : Bytes) :
    (t.erase k).total f + (t.get? k).elim 0 f = t.total f :=
  sum_remove f k t.entries

end Table

end ErasureVault
