/-
  Scans: the keys that a node lists.

  Of a store that works they are the keys that have a record, in ascending order
  (`scanItems_ok`), so stores that hold the same list the same keys (`scanItems_of_held`); what a
  node lists are the first of them (`keys_of_scan`).
-/
import ErasureVault.Proofs.Contents

namespace ErasureVault

theorem Text.utf8_of_ofUtf8 {b : Bytes} {s : String} (h : ofUtf8 b = .ok s) : utf8 s = b := by
  rw [ofUtf8, String.fromUTF8?] at h
  by_cases hvalid : (⟨b.toArray⟩ : ByteArray).IsValidUTF8
  · rw [dif_pos hvalid] at h
    obtain rfl := Except.ok.inj h
    simp [utf8, String.fromUTF8]
  · simp [hvalid] at h

theorem Store.utf8_of_scannedKey {k : Bytes} {key : String} (h : scannedKey k = .ok key) :
    Text.utf8 key = k := by
  rw [scannedKey] at h
  cases ht : Text.ofUtf8 k with
  | error fault => simp [ht] at h
  | ok t =>
    rw [ht] at h
    obtain rfl := Except.ok.inj h
    exact Text.utf8_of_ofUtf8 ht

/-- Keys that are texts are read back. -/
theorem Store.map_scannedKey {ks : List Bytes} {keys : List String}
    (h : ks.map scannedKey = keys.map .ok) : keys.map Text.utf8 = ks := by
  induction ks generalizing keys with
  | nil => simpa using h.symm
  | cons k ks ih =>
    cases keys with
    | nil => simp at h
    | cons key keys =>
      obtain ⟨hk, hks⟩ := List.cons.inj h
      rw [List.map_cons, ih hks, utf8_of_scannedKey hk]

theorem Table.pairwise_keys {β : Type} (t : Table β) : t.keys.Pairwise (· < ·) :=
  List.pairwise_map.2 t.sorted

theorem Store.scannedKey_utf8 (key : String) : scannedKey (Text.utf8 key) = .ok key := by
  rw [scannedKey, Text.ofUtf8_utf8]

theorem nodup_of_pairwise_lt {l : List Bytes} (h : l.Pairwise (· < ·)) : l.Nodup :=
  h.imp fun hlt => by
    rintro rfl
    exact List.lt_irrefl _ hlt

theorem eq_of_pairwise_lt {l l' : List Bytes} (h : l.Pairwise (· < ·)) (h' : l'.Pairwise (· < ·))
    (hmem : ∀ k, k ∈ l ↔ k ∈ l') : l = l' := by
  refine List.Perm.eq_of_pairwise (fun a b _ _ hab hba => ?_) h h'
    ((List.perm_ext_iff_of_nodup (nodup_of_pairwise_lt h) (nodup_of_pairwise_lt h')).2 hmem)
  exact absurd (List.lt_trans hab hba) (List.lt_irrefl a)

namespace Node

/-- What is scanned are the keys that have a record, in ascending order. -/
theorem scanItems_cases (s : Store) :
    s = .offline ∨ ∃ ks : List Bytes, scanItems s = ks.map Store.scannedKey ∧ ks.Pairwise (· < ·) ∧
      ∀ k, k ∈ ks ↔ ((s.held k).1).isSome := by
  cases s with
  | memory m =>
    refine Or.inr ⟨m.keys, rfl, m.table.pairwise_keys, fun k => ?_⟩
    rw [MemoryStore.keys, Table.mem_keys_iff, ← Option.isSome_iff_exists]
    exact Option.isSome_map.symm ▸ Iff.rfl
  | tables t =>
    refine Or.inr ⟨t.keys, rfl, t.tables.records.pairwise_keys, fun k => ?_⟩
    rw [TableStore.keys, Table.mem_keys_iff, ← Option.isSome_iff_exists]
    rfl
  | offline => exact Or.inl rfl

/-- **A scan lists the keys that have a record**, in ascending order. -/
theorem scanItems_ok {s : Store} {keys : List String} (h : scanItems s = keys.map .ok) :
    (keys.map Text.utf8).Pairwise (· < ·) ∧
      ∀ k, k ∈ keys.map Text.utf8 ↔ ((s.held k).1).isSome := by
  rcases scanItems_cases s with rfl | ⟨ks, hks, hsorted, hmem⟩
  · cases keys <;> simp [scanItems, Store.scan] at h
  · rw [Store.map_scannedKey (hks.symm.trans h)]
    exact ⟨hsorted, hmem⟩

theorem nodup_of_scanItems {s : Store} {keys : List String}
    (h : scanItems s = keys.map .ok) : keys.Nodup :=
  List.Nodup.of_map Text.utf8 (nodup_of_pairwise_lt (scanItems_ok h).1)

/-- Stores that hold the same list the same keys. -/
theorem scanItems_of_held {s s' : Store} {keys : List String} (hheld : s'.held = s.held)
    (hs' : s' ≠ .offline) (h : scanItems s = keys.map .ok) : scanItems s' = keys.map .ok := by
  obtain ⟨ks, hks, hsorted, hmem⟩ := (scanItems_cases s').resolve_left hs'
  obtain ⟨hsorted', hmem'⟩ := scanItems_ok h
  rw [hks, eq_of_pairwise_lt hsorted hsorted' fun k => by rw [hmem, hmem', hheld], List.map_map]
  exact List.map_congr_left fun key _ => Store.scannedKey_utf8 key

theorem scanItems_of_unread {s s' : Store} (h : s'.unread = s.unread) :
    scanItems s' = scanItems s := by
  have hunread (s : Store) : scanItems s.unread = scanItems s := by
    cases s <;> rfl
  rw [← hunread, h, hunread]

end Node

/-- A scan lists the keys, or breaks off. -/
theorem Node.scan_cases (n : Node) :
    n.scan = scanItems n.store ∨ ∃ k e, n.scan = (scanItems n.store).take k ++ [.error e] := by
  rw [scan]
  cases (n.weather n.calls .allKeys).effect with
  | refuse e => exact Or.inr ⟨0, e, rfl⟩
  | lose e => exact Or.inr ⟨0, e, rfl⟩
  | breakOff k e => exact Or.inr ⟨k, e, rfl⟩
  | pass => exact Or.inl rfl
  | panic => exact Or.inl rfl
  | forge b => exact Or.inl rfl

theorem Node.scan_of_pass {n : Node} (h : (n.weather n.calls .allKeys).effect = .pass) :
    n.scan = scanItems n.store := by
  rw [scan, h]

theorem Node.scanItems_of_scan {n : Node} {keys : List String} (h : n.scan = keys.map .ok) :
    scanItems n.store = keys.map .ok := by
  rcases n.scan_cases with hs | ⟨k, e, hs⟩
  · exact hs ▸ h
  · have hmem : Except.error e ∈ keys.map (Except.ok : String → Except Failure String) := by
      rw [← h, hs]
      exact List.mem_append_right _ (List.mem_singleton_self _)
    simp at hmem

/-- What a scan lists are the first keys of the store. -/
theorem Node.keys_of_scan {n : Node} {keys done : List String} {key : String}
    {rest : List (Except Failure String)} (h : scanItems n.store = keys.map .ok)
    (hscan : n.scan = done.map .ok ++ .ok key :: rest) : ∃ rest', keys = done ++ key :: rest' := by
  have hmap (l : List String) : (l.map Except.ok).filterMap (Except.toOption (ε := Failure)) = l := by
    rw [List.filterMap_map]
    exact List.filterMap_some
  have hprefix : n.scan.filterMap Except.toOption <+: keys := by
    rcases n.scan_cases with hs | ⟨k, e, hs⟩
    · have hall : n.scan.filterMap Except.toOption = keys := by rw [hs, h, hmap]
      exact hall ▸ List.prefix_rfl
    · have herror : [Except.error e].filterMap Except.toOption = ([] : List String) := rfl
      rw [hs, h, ← List.map_take, List.filterMap_append, hmap, herror, List.append_nil]
      exact List.take_prefix k keys
  rw [hscan, List.filterMap_append, hmap] at hprefix
  obtain ⟨t, ht⟩ := hprefix
  exact ⟨rest.filterMap Except.toOption ++ t, by rw [← ht, List.append_assoc]; rfl⟩

end ErasureVault
