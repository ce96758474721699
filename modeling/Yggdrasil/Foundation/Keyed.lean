import Mathlib.Data.List.AList
import Mathlib.Tactic

/-!
# Keyed collections

Lists whose items carry a unique key, and association tables filled from and
emptied by such lists.
-/

namespace Yggdrasil.Foundation

variable {κ β : Type} [DecidableEq κ] (key : β → κ)

def findKey (items : List β) (k : κ) : Option β :=
  items.find? (fun item => key item == k)

variable {items : List β} {k : κ} {item : β} {γ α : Type} {table : AList (fun _ : κ => β)}

theorem findKey_eq_some_iff (hnodup : (items.map key).Nodup) :
    findKey key items k = some item ↔ item ∈ items ∧ key item = k := by
  unfold findKey
  induction items with
  | nil => simp
  | cons first rest ih =>
      rw [List.map_cons, List.nodup_cons] at hnodup
      by_cases hfirst : key first = k
      · rw [List.find?_cons_of_pos (by simpa using hfirst)]
        constructor
        · intro h
          cases h
          exact ⟨List.mem_cons_self, hfirst⟩
        · rintro ⟨hmem, hkey⟩
          rcases List.mem_cons.1 hmem with rfl | hrest
          · rfl
          · rw [hfirst, ← hkey] at hnodup
            exact absurd (List.mem_map_of_mem hrest) hnodup.1
      · rw [List.find?_cons_of_neg (by simpa using hfirst), ih hnodup.2]
        constructor
        · rintro ⟨hmem, hkey⟩
          exact ⟨List.mem_cons_of_mem _ hmem, hkey⟩
        · rintro ⟨hmem, hkey⟩
          rcases List.mem_cons.1 hmem with rfl | hrest
          · exact absurd hkey hfirst
          · exact ⟨hrest, hkey⟩

theorem findKey_eq_none_iff : findKey key items k = none ↔ k ∉ items.map key := by
  simp [findKey]

omit [DecidableEq κ] in
theorem nodup_map_filter_append (hnodup : (items.map key).Nodup) {p q : β → Bool}
    (hdisjoint : ∀ item, p item = true → q item = false) :
    ((items.filter p ++ items.filter q).map key).Nodup := by
  rw [List.map_append, List.nodup_append]
  refine ⟨hnodup.sublist (List.filter_sublist.map key),
    hnodup.sublist (List.filter_sublist.map key), ?_⟩
  intro k hk k' hk' heq
  obtain ⟨item, hitem, rfl⟩ := List.mem_map.1 hk
  obtain ⟨other, hother, rfl⟩ := List.mem_map.1 hk'
  rw [List.mem_filter] at hitem hother
  obtain rfl := List.inj_on_of_nodup_map hnodup hitem.1 hother.1 heq
  have hfalse := hdisjoint item hitem.2
  rw [hother.2] at hfalse
  cases hfalse

theorem filter_filterMap_of_notMem {f : β → Option γ} {key' : γ → κ}
    (hkey : ∀ item result, f item = some result → key' result = key item)
    (hk : k ∉ items.map key) : (items.filterMap f).filter (fun result => key' result = k) = [] := by
  rw [List.filter_eq_nil_iff]
  intro result hresult
  obtain ⟨item, hitem, hf⟩ := List.mem_filterMap.1 hresult
  have hne : key item ≠ k := fun heq => hk (heq ▸ List.mem_map_of_mem hitem)
  simpa [hkey item result hf] using hne

theorem filter_filterMap_of_mem {f : β → Option γ} {key' : γ → κ}
    (hkey : ∀ item result, f item = some result → key' result = key item)
    (hnodup : (items.map key).Nodup) (hitem : item ∈ items) :
    (items.filterMap f).filter (fun result => key' result = key item) = (f item).toList := by
  induction items with
  | nil => cases hitem
  | cons first rest ih =>
      rw [List.map_cons, List.nodup_cons] at hnodup
      rcases List.mem_cons.1 hitem with rfl | hrest
      · have hothers := filter_filterMap_of_notMem key hkey hnodup.1
        cases hf : f item with
        | none => rw [List.filterMap_cons_none hf, hothers, Option.toList_none]
        | some result =>
            rw [List.filterMap_cons_some hf,
              List.filter_cons_of_pos (by simpa using hkey item result hf), hothers,
              Option.toList_some]
      · have hne : key first ≠ key item :=
          fun heq => hnodup.1 (heq ▸ List.mem_map_of_mem hrest)
        cases hf : f first with
        | none => rw [List.filterMap_cons_none hf, ih hnodup.2 hrest]
        | some result =>
            rw [List.filterMap_cons_some hf,
              List.filter_cons_of_neg (by simpa [hkey first result hf] using hne),
              ih hnodup.2 hrest]

def keyed (items : List β) : AList (fun _ : κ => β) :=
  items.foldl (fun table item => table.insert (key item) item) ∅

theorem lookup_keyed (hnodup : (items.map key).Nodup) (k : κ) :
    (keyed key items).lookup k = findKey key items k := by
  have filled : ∀ (items : List β) (table : AList (fun _ : κ => β)),
      (items.map key).Nodup →
      (items.foldl (fun table item => table.insert (key item) item) table).lookup k =
        (findKey key items k).or (table.lookup k) := by
    intro items
    induction items with
    | nil => intro table _; rfl
    | cons first rest ih =>
        intro table hnodup
        rw [List.map_cons, List.nodup_cons] at hnodup
        rw [List.foldl_cons, ih _ hnodup.2]
        by_cases hfirst : key first = k
        · rw [(findKey_eq_none_iff key).2 (hfirst ▸ hnodup.1), findKey,
            List.find?_cons_of_pos (by simpa using hfirst), ← hfirst, AList.lookup_insert]
          rfl
        · rw [AList.lookup_insert_ne (Ne.symm hfirst), findKey, findKey,
            List.find?_cons_of_neg (by simpa using hfirst)]
  rw [keyed, filled items ∅ hnodup, AList.lookup_empty, Option.or_none]

def fill {γ : Type} (value : β → γ) (items : List β) (table : AList (fun _ : κ => γ)) :
    AList (fun _ : κ => γ) :=
  items.foldl (fun table item => table.insert (key item) (value item)) table

theorem lookup_fill_of_notMem (value : β → γ) {table : AList (fun _ : κ => γ)}
    (hk : k ∉ items.map key) : (fill key value items table).lookup k = table.lookup k := by
  unfold fill
  induction items generalizing table with
  | nil => rfl
  | cons first rest ih =>
      rw [List.map_cons, List.mem_cons, not_or] at hk
      rw [List.foldl_cons, ih hk.2, AList.lookup_insert_ne hk.1]

theorem lookup_fill_of_mem (value : β → γ) {table : AList (fun _ : κ => γ)}
    (hnodup : (items.map key).Nodup)
    (hitem : item ∈ items) : (fill key value items table).lookup (key item) = some (value item) := by
  induction items generalizing table with
  | nil => cases hitem
  | cons first rest ih =>
      rw [List.map_cons, List.nodup_cons] at hnodup
      rcases List.mem_cons.1 hitem with rfl | hrest
      · exact (lookup_fill_of_notMem key value hnodup.1).trans (AList.lookup_insert _)
      · exact ih hnodup.2 hrest

theorem lookup_fill (value : β → γ) {table : AList (fun _ : κ => γ)}
    (hnodup : (items.map key).Nodup) (k : κ) :
    (fill key value items table).lookup k =
      ((findKey key items k).map value).or (table.lookup k) := by
  cases hfound : findKey key items k with
  | none => exact lookup_fill_of_notMem key value ((findKey_eq_none_iff key).1 hfound)
  | some item =>
      obtain ⟨hitem, rfl⟩ := (findKey_eq_some_iff key hnodup).1 hfound
      exact lookup_fill_of_mem key value hnodup hitem

theorem of_lookup_fill {value : β → γ} {table : AList (fun _ : κ => γ)} {v : γ}
    (h : (fill key value items table).lookup k = some v) :
    (∃ item ∈ items, key item = k ∧ value item = v) ∨ table.lookup k = some v := by
  induction items generalizing table with
  | nil => exact .inr h
  | cons first rest ih =>
      rcases ih h with ⟨item, hitem, hvalue⟩ | hold
      · exact .inl ⟨item, List.mem_cons_of_mem first hitem, hvalue⟩
      · by_cases hfirst : k = key first
        · rw [hfirst, AList.lookup_insert] at hold
          exact .inl ⟨first, List.mem_cons_self, hfirst.symm, Option.some.inj hold⟩
        · rw [AList.lookup_insert_ne hfirst] at hold
          exact .inr hold

omit key in
theorem of_lookup_insert {table : AList (fun _ : κ => γ)} {k' : κ} {v w : γ}
    (h : (table.insert k v).lookup k' = some w) : (k' = k ∧ w = v) ∨ table.lookup k' = some w := by
  by_cases hkey : k' = k
  · rw [hkey, AList.lookup_insert] at h
    exact .inl ⟨hkey, (Option.some.inj h).symm⟩
  · rw [AList.lookup_insert_ne hkey] at h
    exact .inr h

omit key in
theorem of_lookup_erase {table : AList (fun _ : κ => γ)} {k' : κ} {v : γ}
    (h : (table.erase k).lookup k' = some v) : k' ≠ k ∧ table.lookup k' = some v := by
  by_cases hkey : k' = k
  · rw [hkey, AList.lookup_erase] at h
    cases h
  · rw [AList.lookup_erase_ne hkey] at h
    exact ⟨hkey, h⟩

def eraseAll (keys : List κ) (table : AList (fun _ : κ => β)) : AList (fun _ : κ => β) :=
  keys.foldl (fun table k => table.erase k) table

theorem lookup_eraseAll (keys : List κ) (table : AList (fun _ : κ => β)) (k : κ) :
    (eraseAll keys table).lookup k = if k ∈ keys then none else table.lookup k := by
  unfold eraseAll
  induction keys generalizing table with
  | nil => simp
  | cons first rest ih =>
      rw [List.foldl_cons, ih]
      by_cases hrest : k ∈ rest
      · simp [hrest]
      · by_cases hfirst : k = first
        · rw [if_neg hrest, if_pos (hfirst ▸ List.mem_cons_self), hfirst, AList.lookup_erase]
        · rw [if_neg hrest, if_neg (by simp [hfirst, hrest]), AList.lookup_erase_ne hfirst]

theorem eraseAll_map (f : α → κ) (items : List α) (table : AList (fun _ : κ => β)) :
    items.foldl (fun table item => table.erase (f item)) table = eraseAll (items.map f) table := by
  rw [eraseAll, List.foldl_map]

theorem mem_iff_lookup : k ∈ table ↔ ∃ item, table.lookup k = some item := by
  rw [← AList.lookup_isSome, Option.isSome_iff_exists]

theorem mem_eraseAll {keys : List κ} : k ∈ eraseAll keys table ↔ k ∈ table ∧ k ∉ keys := by
  simp only [mem_iff_lookup, lookup_eraseAll]
  by_cases hk : k ∈ keys
  · simp [hk]
  · simp [hk]

theorem mem_entries_iff (table : AList (fun _ : κ => β)) :
    ⟨k, item⟩ ∈ table.entries ↔ table.lookup k = some item :=
  AList.mem_lookup_iff.symm

theorem entries_ne_nil_of_mem (h : k ∈ table) : table.entries ≠ [] := by
  obtain ⟨item, hitem⟩ := mem_iff_lookup.1 h
  exact List.ne_nil_of_mem ((mem_entries_iff table).2 hitem)

theorem of_getElem?_modify {items : List α} {f : α → α} {i j : Nat} {item : α}
    (h : (items.modify i f)[j]? = some item) :
    ∃ before, items[j]? = some before ∧ (i = j ∧ item = f before ∨ item = before) := by
  rw [List.getElem?_modify] at h
  obtain ⟨before, hbefore, rfl⟩ := Option.map_eq_some_iff.1 h
  refine ⟨before, hbefore, ?_⟩
  by_cases hsame : i = j
  · exact .inl ⟨hsame, if_pos hsame⟩
  · exact .inr (if_neg hsame)

theorem of_getElem?_concat {items : List α} {last item : α} {j : Nat}
    (h : (items ++ [last])[j]? = some item) :
    items[j]? = some item ∨ j = items.length ∧ item = last := by
  rcases Nat.lt_or_ge j items.length with hlt | hge
  · exact .inl ((List.getElem?_append_left hlt).symm.trans h)
  · rw [List.getElem?_append_right hge, List.getElem?_singleton] at h
    split_ifs at h with hzero
    exact .inr ⟨by omega, (Option.some.inj h).symm⟩

section Counting

variable (p : β → Bool)

omit key

def countValues (table : AList (fun _ : κ => β)) : Nat :=
  table.entries.countP (fun entry => p entry.2)

theorem countValues_erase (table : AList (fun _ : κ => β)) (k : κ) :
    countValues p (table.erase k) + ((table.lookup k).any p).toNat = countValues p table := by
  cases hlookup : table.lookup k with
  | none =>
      have hnot : k ∉ table := AList.lookup_eq_none.1 hlookup
      have hsame : (table.erase k).entries = table.entries := List.kerase_of_notMem_keys hnot
      simp [countValues, hsame]
  | some v =>
      have hmem : k ∈ table.entries.keys := mem_iff_lookup.2 ⟨v, hlookup⟩
      -- the key stands at one place of the entries, with the value the lookup gives
      obtain ⟨w, before, after, hbefore, hentries, herased⟩ := List.exists_of_kerase hmem
      have hvalue : table.lookup k = some w := by
        rw [← mem_entries_iff, hentries]
        simp
      obtain rfl : v = w := Option.some.inj (hlookup.symm.trans hvalue)
      have hcount : countValues p (table.erase k) =
          (before ++ after).countP (fun entry => p entry.2) := by
        rw [← herased]
        rfl
      rw [hcount, countValues, hentries, List.countP_append, List.countP_append, List.countP_cons,
        Option.any_some]
      cases p v
      · simp
      · simp only [Bool.toNat_true, if_true]
        omega

theorem countValues_insert (table : AList (fun _ : κ => β)) (k : κ) (v : β) :
    countValues p (table.insert k v) + ((table.lookup k).any p).toNat =
      countValues p table + (p v).toNat := by
  have hinsert : countValues p (table.insert k v) =
      countValues p (table.erase k) + (p v).toNat := by
    rw [countValues, AList.entries_insert, List.countP_cons]
    cases p v <;> rfl
  have herase := countValues_erase p table k
  omega

theorem countValues_pos_iff {table : AList (fun _ : κ => β)} :
    0 < countValues p table ↔ ∃ k v, table.lookup k = some v ∧ p v = true := by
  rw [countValues, List.countP_pos_iff]
  constructor
  · rintro ⟨⟨k, v⟩, hmem, hv⟩
    exact ⟨k, v, (mem_entries_iff table).1 hmem, hv⟩
  · rintro ⟨k, v, hlookup, hv⟩
    exact ⟨⟨k, v⟩, (mem_entries_iff table).2 hlookup, hv⟩

end Counting

end Yggdrasil.Foundation
