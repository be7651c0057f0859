import Mathlib.Data.List.Nodup
import Mathlib.Data.List.Induction

/-! # A map filled by merging

Items go into a map by their key: the first item of a key is put there, and every
later one is merged into it. The map is the list of its values. What it has under a
key is the merge of the items of that key alone, in the order in which they came.
-/

namespace Kapprofiler.Foundation

universe uKey uItem

variable {Key : Type uKey} {Item : Type uItem} [DecidableEq Key]

/-- Merge into the item of that key, or add the item to the map. -/
def insertMerge (key : Item → Key) (merge : Item → Item → Item) : List Item → Item → List Item
  | [], item => [item]
  | kept :: rest, item =>
      if key kept = key item then merge kept item :: rest
      else kept :: insertMerge key merge rest item

/-- The first of the items, with the others merged into it. -/
def mergeAll (merge : Item → Item → Item) : List Item → Option Item
  | [] => none
  | first :: rest => some (rest.foldl merge first)

variable {key : Item → Key} {merge : Item → Item → Item}

theorem mergeAll_snoc (items : List Item) (item : Item) :
    mergeAll merge (items ++ [item]) =
      some ((mergeAll merge items).elim item fun kept => merge kept item) := by
  cases items with
  | nil => rfl
  | cons first rest =>
      rw [List.cons_append]
      simp only [mergeAll, List.foldl_append, List.foldl_cons, List.foldl_nil, Option.elim_some]

theorem mergeAll_eq_some {items : List Item} {item : Item} :
    mergeAll merge items = some item ↔
      ∃ first rest, items = first :: rest ∧ item = rest.foldl merge first := by
  cases items with
  | nil => simp [mergeAll]
  | cons first rest => simp [mergeAll, eq_comm]

section Keys

variable (hmerge : ∀ kept item, key (merge kept item) = key kept)

include hmerge

/-- The keys of the map change only when an item has a new one. -/
theorem map_insertMerge (items : List Item) (item : Item) :
    (insertMerge key merge items item).map key =
      if key item ∈ items.map key then items.map key else items.map key ++ [key item] := by
  induction items with
  | nil => rfl
  | cons kept rest ih =>
      unfold insertMerge
      by_cases hkey : key kept = key item
      · rw [if_pos hkey, List.map_cons, hmerge, List.map_cons,
          if_pos (hkey ▸ List.mem_cons_self)]
      · rw [if_neg hkey, List.map_cons, ih, List.map_cons]
        simp only [List.mem_cons, Ne.symm hkey, false_or]
        split
        · rfl
        · rw [List.cons_append]

theorem forall_key_insertMerge (holds : Key → Prop) (items : List Item) (item : Item) :
    (∀ kept ∈ insertMerge key merge items item, holds (key kept)) ↔
      (∀ kept ∈ items, holds (key kept)) ∧ holds (key item) := by
  induction items with
  | nil => simp [insertMerge]
  | cons kept rest ih =>
      unfold insertMerge
      by_cases hkey : key kept = key item
      · rw [if_pos hkey, List.forall_mem_cons, List.forall_mem_cons, hmerge, hkey]
        refine (and_iff_left_of_imp ?_).symm
        intro hall
        exact hall.1
      · rw [if_neg hkey, List.forall_mem_cons, List.forall_mem_cons, ih, and_assoc]

theorem nodup_insertMerge {items : List Item} (hnodup : (items.map key).Nodup) (item : Item) :
    ((insertMerge key merge items item).map key).Nodup := by
  rw [map_insertMerge hmerge]
  split
  next => exact hnodup
  next hnew =>
    rw [← List.concat_eq_append]
    exact List.Nodup.concat hnew hnodup

theorem find?_insertMerge (items : List Item) (item : Item) (wanted : Key) :
    (insertMerge key merge items item).find? (fun kept => key kept = wanted) =
      if key item = wanted then
        some ((items.find? fun kept => key kept = wanted).elim item fun kept => merge kept item)
      else items.find? fun kept => key kept = wanted := by
  induction items with
  | nil =>
      unfold insertMerge
      by_cases hwanted : key item = wanted <;> simp [hwanted]
  | cons kept rest ih =>
      unfold insertMerge
      by_cases hkey : key kept = key item
      · by_cases hwanted : key item = wanted <;> simp [hkey, hwanted, hmerge]
      · rw [if_neg hkey]
        by_cases hwanted : key kept = wanted
        · have hother : key item ≠ wanted := fun h => hkey (hwanted.trans h.symm)
          simp [hwanted, hother]
        · rw [List.find?_cons_of_neg (by simpa using hwanted),
            List.find?_cons_of_neg (by simpa using hwanted)]
          exact ih

/-! ## Filling the map -/

theorem nodup_foldl_insertMerge (items : List Item) :
    ((items.foldl (insertMerge key merge) []).map key).Nodup := by
  induction items using List.reverseRecOn with
  | nil => exact List.nodup_nil
  | append_singleton items item ih =>
      rw [List.foldl_append]
      exact nodup_insertMerge hmerge ih item

theorem find?_foldl_insertMerge (items : List Item) (wanted : Key) :
    (items.foldl (insertMerge key merge) []).find? (fun kept => key kept = wanted) =
      mergeAll merge (items.filter fun item => key item = wanted) := by
  induction items using List.reverseRecOn with
  | nil => rfl
  | append_singleton items item ih =>
      rw [List.foldl_append, List.foldl_cons, List.foldl_nil, find?_insertMerge hmerge, ih,
        List.filter_append]
      by_cases hwanted : key item = wanted
      · rw [if_pos hwanted, List.filter_cons_of_pos (by simpa using hwanted), List.filter_nil,
          mergeAll_snoc]
      · rw [if_neg hwanted, List.filter_cons_of_neg (by simpa using hwanted), List.filter_nil,
          List.append_nil]

end Keys

/-- Where no key occurs twice, an item is found under its key. -/
theorem find?_eq_some_of_nodup {items : List Item} (hnodup : (items.map key).Nodup)
    {item : Item} (hitem : item ∈ items) :
    items.find? (fun kept => key kept = key item) = some item := by
  induction items with
  | nil => cases hitem
  | cons kept rest ih =>
      rw [List.map_cons, List.nodup_cons] at hnodup
      rcases List.mem_cons.mp hitem with rfl | hrest
      · exact List.find?_cons_of_pos (by simp)
      · have hne : key kept ≠ key item := by
          intro heq
          exact hnodup.1 (heq ▸ List.mem_map_of_mem hrest)
        rw [List.find?_cons_of_neg (by simpa using hne)]
        exact ih hnodup.2 hrest

/-- The merge of the items of a key is in the map, under that key. -/
theorem mem_of_mergeAll (hmerge : ∀ kept item, key (merge kept item) = key kept)
    {items : List Item} {wanted : Key} {item : Item}
    (hitem : mergeAll merge (items.filter fun other => key other = wanted) = some item) :
    item ∈ items.foldl (insertMerge key merge) [] ∧ key item = wanted := by
  rw [← find?_foldl_insertMerge hmerge] at hitem
  have hkey := List.find?_some hitem
  exact ⟨List.mem_of_find?_eq_some hitem, by simpa using hkey⟩

/-- The map has the merges of the items of each key. -/
theorem mem_foldl_insertMerge (hmerge : ∀ kept item, key (merge kept item) = key kept)
    (items : List Item) {item : Item} :
    item ∈ items.foldl (insertMerge key merge) [] ↔
      mergeAll merge (items.filter fun other => key other = key item) = some item := by
  constructor
  · rw [← find?_foldl_insertMerge hmerge]
    exact find?_eq_some_of_nodup (nodup_foldl_insertMerge hmerge items)
  · intro hitem
    exact (mem_of_mergeAll hmerge hitem).1

end Kapprofiler.Foundation
