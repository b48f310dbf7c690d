import Mathlib.Data.List.Induction
import GraphWire.OrderedMap
import GraphWire.SortedMap

/-!
# `Proofs.Maps` — maps are determined by their look-ups

Both kinds of maps are entry lists without repeated keys, so an entry stands in the list exactly when
the look-up of its key finds it. For sorted maps the order of the entries is determined too, so two
of them with the same look-ups are equal; this is how every equality of configurations is proved.

## Contents
- **Entry lists.** `Entry.mem_iff_find?`, `Entry.find?_of_perm`, `Entry.eq_of_find?_eq`, and
  `Entry.put_of_notMem`, where an insertion is an extension.
- **Sorted maps.** `SortedMap.ext_get?`, `SortedMap.get?_union`, `SortedMap.collision?_eq_none_iff`.
- **Ordered maps.** The fields beside the one that `insert` or `erase` is about stay as they are;
  `OrderedMap.get?_ofList` and `OrderedMap.keys_ofList`, for entries inserted in turn.
-/

namespace GraphWire

variable {α : Type u}

/-! ## Entry lists -/

namespace Entry

/-- What a look-up finds stands in the list. -/
theorem mem_of_find? {key : String} {value : α} {entries : List (String × α)}
    (h : find? key entries = some value) : (key, value) ∈ entries := by
  induction entries with
  | nil => simp [find?] at h
  | cons e rest ih =>
    obtain ⟨k, v⟩ := e
    simp only [find?] at h
    by_cases hk : k = key
    · rw [if_pos hk] at h
      cases h
      rw [hk]
      exact List.mem_cons_self
    · rw [if_neg hk] at h
      exact List.mem_cons_of_mem _ (ih h)

/-- **An entry stands in a list without repeated keys exactly when the look-up of its key finds it.** -/
theorem mem_iff_find? {key : String} {value : α} {entries : List (String × α)}
    (h : (keys entries).Nodup) : (key, value) ∈ entries ↔ find? key entries = some value := by
  refine ⟨?_, mem_of_find?⟩
  intro hm
  induction entries with
  | nil => exact absurd hm List.not_mem_nil
  | cons e rest ih =>
    obtain ⟨k, v⟩ := e
    obtain ⟨hk, hrest⟩ := List.nodup_cons.1 h
    rcases List.mem_cons.1 hm with heq | hm
    · cases heq
      simp [find?]
    · -- the key of the first entry is not that of another one
      have hne : k ≠ key := by
        rintro rfl
        exact hk (List.mem_map.2 ⟨_, hm, rfl⟩)
      rw [find?, if_neg hne]
      exact ih hrest hm

/-- Entries without repeated keys have the same look-ups in every order. -/
theorem find?_of_perm {entries others : List (String × α)} (h : entries.Perm others)
    (hdistinct : (keys entries).Nodup) (key : String) : find? key entries = find? key others := by
  have hothers : (keys others).Nodup := (h.map Prod.fst).nodup_iff.1 hdistinct
  apply Option.ext
  intro value
  rw [← mem_iff_find? hdistinct, ← mem_iff_find? hothers, h.mem_iff]

theorem mem_keys_iff {key : String} {entries : List (String × α)} :
    key ∈ keys entries ↔ (find? key entries).isSome := by
  rw [Option.isSome_iff_ne_none, Ne, find?_eq_none_iff, Decidable.not_not]

theorem nodup_of_increasing {entries : List (String × α)} (h : Increasing entries) :
    (keys entries).Nodup := by
  apply List.pairwise_map.2
  apply h.imp
  intro a b hlt heq
  rw [heq] at hlt
  exact String.lt_irrefl _ hlt

theorem nodup_entries {entries : List (String × α)} (h : (keys entries).Nodup) : entries.Nodup :=
  List.Pairwise.of_map Prod.fst (fun _ _ hne heq => hne (congrArg Prod.fst heq)) h

/-- Looking up in a list whose values are replaced by their images. -/
theorem find?_map {β : Type v} (f : α → β) (key : String) (entries : List (String × α)) :
    find? key (entries.map fun e => (e.1, f e.2)) = (find? key entries).map f := by
  induction entries with
  | nil => rfl
  | cons e rest ih =>
    simp only [List.map_cons, find?, ih]
    split <;> rfl

/-- **Two increasing lists with the same look-ups are equal:** they hold the same entries, and there is
    one order in which these increase. -/
theorem eq_of_find?_eq {a b : List (String × α)} (ha : Increasing a) (hb : Increasing b)
    (h : ∀ key, find? key a = find? key b) : a = b := by
  have hperm : a.Perm b := by
    apply (List.perm_ext_iff_of_nodup (nodup_entries (nodup_of_increasing ha))
      (nodup_entries (nodup_of_increasing hb))).2
    intro e
    rw [mem_iff_find? (nodup_of_increasing ha), mem_iff_find? (nodup_of_increasing hb), h]
  refine hperm.eq_of_pairwise ?_ ha hb
  -- no two different entries can stand in either order
  intro x y _ _ hxy hyx
  exact absurd (String.lt_trans hxy hyx) (String.lt_irrefl _)

/-- Inserting under a new key extends the list. -/
theorem put_of_notMem {key : String} {value : α} {entries : List (String × α)}
    (h : key ∉ keys entries) : put key value entries = entries ++ [(key, value)] := by
  induction entries with
  | nil => rfl
  | cons e rest ih =>
    obtain ⟨hne, hrest⟩ := not_or.1 (mt List.mem_cons.2 h)
    rw [put, if_neg (Ne.symm hne), ih hrest, List.cons_append]

theorem drop_of_notMem {key : String} {entries : List (String × α)} (h : key ∉ keys entries) :
    drop key entries = entries := by
  induction entries with
  | nil => rfl
  | cons e rest ih =>
    obtain ⟨hne, hrest⟩ := not_or.1 (mt List.mem_cons.2 h)
    rw [drop, if_neg (Ne.symm hne), ih hrest]

/-- Inserting under a key that is there leaves the keys as they are. -/
theorem keys_put_of_mem {key : String} {value : α} {entries : List (String × α)}
    (h : key ∈ keys entries) : keys (put key value entries) = keys entries := by
  induction entries with
  | nil => cases h
  | cons e rest ih =>
    rw [put]
    by_cases hk : e.1 = key
    · rw [if_pos hk]
      rfl
    · have hrest : key ∈ keys rest := by
        rcases List.mem_cons.1 h with heq | h
        · exact absurd heq.symm hk
        · exact h
      rw [if_neg hk]
      show e.1 :: keys (put key value rest) = e.1 :: keys rest
      rw [ih hrest]

theorem mem_put {key : String} {value : α} {e : String × α} {entries : List (String × α)}
    (h : e ∈ put key value entries) : e = (key, value) ∨ e ∈ entries := by
  induction entries with
  | nil => exact Or.inl (List.mem_singleton.1 h)
  | cons d rest ih =>
    rw [put] at h
    by_cases hk : d.1 = key
    · rw [if_pos hk] at h
      rcases List.mem_cons.1 h with rfl | h
      · exact Or.inl (by rw [hk])
      · exact Or.inr (List.mem_cons_of_mem _ h)
    · rw [if_neg hk] at h
      rcases List.mem_cons.1 h with rfl | h
      · exact Or.inr List.mem_cons_self
      · exact (ih h).imp_right (List.mem_cons_of_mem _)

/-- Inserting leaves the entries under other keys, and their order, as they are. -/
theorem filter_put (key : String) (value : α) (entries : List (String × α)) :
    (put key value entries).filter (·.1 ≠ key) = entries.filter (·.1 ≠ key) := by
  induction entries with
  | nil => simp [put]
  | cons e rest ih =>
    rw [put]
    by_cases hk : e.1 = key
    · simp [hk]
    · rw [if_neg hk, List.filter_cons_of_pos (by simpa using hk),
        List.filter_cons_of_pos (by simpa using hk), ih]

/-- Removing leaves the entries under other keys, and their order, as they are. -/
theorem filter_drop (key : String) (entries : List (String × α)) :
    (drop key entries).filter (·.1 ≠ key) = entries.filter (·.1 ≠ key) := by
  induction entries with
  | nil => rfl
  | cons e rest ih =>
    rw [drop]
    by_cases hk : e.1 = key
    · simp [hk]
    · rw [if_neg hk, List.filter_cons_of_pos (by simpa using hk),
        List.filter_cons_of_pos (by simpa using hk), ih]

end Entry

/-! ## Sorted maps -/

namespace SortedMap

/-- **Two sorted maps with the same look-ups are equal.** -/
theorem ext_get? {a b : SortedMap α} (h : ∀ key, a.get? key = b.get? key) : a = b :=
  SortedMap.ext (Entry.eq_of_find?_eq a.increasing b.increasing h)

theorem nodup_keys (m : SortedMap α) : m.keys.Nodup := Entry.nodup_of_increasing m.increasing

theorem mem_entries_iff {m : SortedMap α} {key : String} {value : α} :
    (key, value) ∈ m.entries ↔ m.get? key = some value :=
  Entry.mem_iff_find? m.nodup_keys

theorem contains_iff {m : SortedMap α} {key : String} :
    m.contains key ↔ ∃ value, m.get? key = some value := Option.isSome_iff_exists

theorem mem_keys_iff {m : SortedMap α} {key : String} : key ∈ m.keys ↔ m.contains key :=
  Entry.mem_keys_iff

theorem get?_eq_none_iff {m : SortedMap α} {key : String} :
    m.get? key = none ↔ ¬ m.contains key := Option.not_isSome_iff_eq_none.symm

/-- The union has what the second map has, and where that has nothing, what the first has. -/
theorem get?_union (m other : SortedMap α) (key : String) :
    (m.union other).get? key = (other.get? key).or (m.get? key) := by
  have hfold : ∀ (entries : List (String × α)) (m : SortedMap α), (Entry.keys entries).Nodup →
      (entries.foldl (fun m e => m.insert e.1 e.2) m).get? key
        = (Entry.find? key entries).or (m.get? key) := by
    intro entries
    induction entries with
    | nil =>
      intro m _
      rfl
    | cons e rest ih =>
      intro m hnd
      obtain ⟨hk, hrest⟩ := List.nodup_cons.1 hnd
      rw [List.foldl_cons, ih _ hrest, get?_insert, Entry.find?]
      by_cases he : key = e.1
      · subst he
        rw [if_pos rfl, if_pos rfl, Entry.find?_eq_none_iff.2 hk]
        rfl
      · rw [if_neg he, if_neg (Ne.symm he)]
  exact hfold other.entries m other.nodup_keys

/-- There is no common key exactly when the keys of the two maps are disjoint. -/
theorem collision?_eq_none_iff {m other : SortedMap α} :
    m.collision? other = none ↔ ∀ key, other.contains key → ¬ m.contains key := by
  rw [collision?, List.find?_eq_none]
  apply forall_congr'
  intro key
  rw [mem_keys_iff]

end SortedMap

/-! ## Ordered maps -/

namespace OrderedMap

theorem mem_entries_iff {m : OrderedMap α} {key : String} {value : α} :
    (key, value) ∈ m.entries ↔ m.get? key = some value :=
  Entry.mem_iff_find? m.nodup

theorem filter_insert (m : OrderedMap α) (key : String) (value : α) :
    (m.insert key value).entries.filter (·.1 ≠ key) = m.entries.filter (·.1 ≠ key) :=
  Entry.filter_put key value m.entries

theorem filter_erase (m : OrderedMap α) (key : String) :
    (m.erase key).entries.filter (·.1 ≠ key) = m.entries.filter (·.1 ≠ key) :=
  Entry.filter_drop key m.entries

/-- Entries inserted in turn behind what a map has, if all keys are new. -/
theorem entries_foldl_insert {m : OrderedMap α} {entries : List (String × α)}
    (h : (Entry.keys (m.entries ++ entries)).Nodup) :
    (entries.foldl (fun m e => m.insert e.1 e.2) m).entries = m.entries ++ entries := by
  induction entries generalizing m with
  | nil => exact (List.append_nil _).symm
  | cons e rest ih =>
    have hput : (m.insert e.1 e.2).entries = m.entries ++ [e] := by
      apply Entry.put_of_notMem
      intro hm
      rw [Entry.keys, List.map_append, List.nodup_append] at h
      exact h.2.2 _ hm _ List.mem_cons_self rfl
    have hsplit : (m.insert e.1 e.2).entries ++ rest = m.entries ++ e :: rest := by
      rw [hput, List.append_assoc]
      rfl
    rw [← hsplit] at h ⊢
    exact ih h

/-- **Entries without repeated keys form the map that they are.** -/
theorem entries_ofList {entries : List (String × α)} (h : (Entry.keys entries).Nodup) :
    (ofList entries).entries = entries := by
  have hempty : (empty : OrderedMap α).entries = [] := rfl
  have hfold : (ofList entries).entries = (empty : OrderedMap α).entries ++ entries :=
    entries_foldl_insert h
  rw [hfold, hempty, List.nil_append]

/-- What stands in a map has been inserted. -/
theorem mem_of_mem_foldl_insert {m : OrderedMap α} {entries : List (String × α)} {e : String × α}
    (h : e ∈ (entries.foldl (fun m e => m.insert e.1 e.2) m).entries) :
    e ∈ m.entries ∨ e ∈ entries := by
  induction entries generalizing m with
  | nil => exact Or.inl h
  | cons d rest ih =>
    rcases ih h with hm | hm
    · rcases Entry.mem_put hm with rfl | hm
      · exact Or.inr List.mem_cons_self
      · exact Or.inl hm
    · exact Or.inr (List.mem_cons_of_mem _ hm)

theorem mem_of_mem_ofList {entries : List (String × α)} {e : String × α}
    (h : e ∈ (ofList entries).entries) : e ∈ entries := by
  rcases mem_of_mem_foldl_insert h with h | h
  · cases h
  · exact h

/-- An entry that is inserted leaves its key in the map. -/
theorem mem_keys_foldl_insert {m : OrderedMap α} {entries : List (String × α)} {key : String} :
    key ∈ (entries.foldl (fun m e => m.insert e.1 e.2) m).keys ↔
      key ∈ m.keys ∨ key ∈ Entry.keys entries := by
  induction entries generalizing m with
  | nil => simp [Entry.keys]
  | cons e rest ih =>
    have hput : key ∈ (m.insert e.1 e.2).keys ↔ key = e.1 ∨ key ∈ m.keys := Entry.mem_keys_put
    have hkeys : key ∈ Entry.keys (e :: rest) ↔ key = e.1 ∨ key ∈ Entry.keys rest := List.mem_cons
    rw [List.foldl_cons, ih, hput, hkeys, or_assoc, or_left_comm]

theorem mem_keys_ofList {entries : List (String × α)} {key : String} :
    key ∈ (ofList entries).keys ↔ key ∈ Entry.keys entries := by
  rw [ofList, mem_keys_foldl_insert]
  exact or_iff_right List.not_mem_nil

/-! ### Entries inserted in turn -/

theorem ofList_concat (entries : List (String × α)) (e : String × α) :
    ofList (entries ++ [e]) = (ofList entries).insert e.1 e.2 := by
  rw [ofList, List.foldl_append]
  rfl

/-- **A key has its last value.** -/
theorem get?_ofList (entries : List (String × α)) (key : String) :
    (ofList entries).get? key = (entries.reverse.find? fun e => e.1 = key).map Prod.snd := by
  induction entries using List.reverseRecOn with
  | nil => rfl
  | append_singleton entries e ih =>
    rw [ofList_concat, get?_insert, ih, List.reverse_append, List.reverse_singleton,
      List.singleton_append, List.find?_cons]
    by_cases hkey : key = e.1
    · rw [if_pos hkey, decide_eq_true hkey.symm]
      rfl
    · rw [if_neg hkey, decide_eq_false (Ne.symm hkey)]

/-- **The keys stand in the order of their first entries.** -/
theorem keys_ofList (entries : List (String × α)) :
    (ofList entries).keys = (Entry.keys entries).eraseDups := by
  induction entries using List.reverseRecOn with
  | nil => rfl
  | append_singleton entries e ih =>
    have hkeys : (ofList (entries ++ [e])).keys = Entry.keys (Entry.put e.1 e.2 (ofList entries).entries) := by
      rw [ofList_concat]
      rfl
    have hsplit : Entry.keys (entries ++ [e]) = Entry.keys entries ++ [e.1] := by
      rw [Entry.keys, List.map_append]
      rfl
    rw [hkeys, hsplit, List.eraseDups_append, ← ih]
    by_cases hmem : e.1 ∈ Entry.keys entries
    · have hthere : e.1 ∈ Entry.keys (ofList entries).entries := mem_keys_ofList.2 hmem
      have hnone : [e.1].removeAll (Entry.keys entries) = [] := by
        simp only [List.removeAll, List.filter_cons, List.elem_eq_mem, hmem, decide_true, Bool.not_true,
          Bool.false_eq_true, if_false, List.filter_nil]
      rw [Entry.keys_put_of_mem hthere, hnone, List.eraseDups_nil, List.append_nil, keys]
    · have hnot : e.1 ∉ Entry.keys (ofList entries).entries := mt mem_keys_ofList.1 hmem
      have hone : [e.1].removeAll (Entry.keys entries) = [e.1] := by
        simp only [List.removeAll, List.filter_cons, List.elem_eq_mem, hmem, decide_false,
          Bool.not_false, if_true, List.filter_nil]
      rw [Entry.put_of_notMem hnot, hone, Entry.keys, List.map_append]
      rfl

end OrderedMap

end GraphWire
