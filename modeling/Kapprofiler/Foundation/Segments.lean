import Mathlib.Data.List.Basic

/-! # Names joined by a separator

A name that may itself contain the separator falls into segments. Joining two names
concatenates their segments: the joined name determines the sequence of all segments,
but not which of them belong to which name.
-/

namespace Kapprofiler.Foundation

variable {separator : Char}

/-- The parts of a name between its separators. -/
def segments (separator : Char) (name : String) : List (List Char) :=
  name.toList.splitOn separator

theorem segments_inj (separator : Char) {first second : String} :
    segments separator first = segments separator second ↔ first = second := by
  constructor
  · intro h
    have hjoin := congrArg (List.intercalate [separator]) h
    unfold segments at hjoin
    rw [List.intercalate_splitOn, List.intercalate_splitOn] at hjoin
    exact String.toList_inj.mp hjoin
  · exact congrArg _

theorem segments_join (first second : String) :
    segments separator (first ++ String.singleton separator ++ second) =
      segments separator first ++ segments separator second := by
  unfold segments
  rw [String.toList_append, String.toList_append, String.toList_singleton, List.append_assoc]
  exact List.splitOn_append_cons_self _ _

/-- A name without separators is its only segment. -/
theorem segments_of_notMem {name : String} (hname : separator ∉ name.toList) :
    segments separator name = [name.toList] :=
  List.splitOn_eq_singleton hname

/-! ## Empty segments -/

section Empty

variable {Item : Type*} [DecidableEq Item] {separator : Item}

theorem tail_splitOn_cons (item : Item) (items : List Item) :
    ((item :: items).splitOn separator).tail =
      if item = separator then items.splitOn separator else (items.splitOn separator).tail := by
  rw [List.splitOn_cons_eq_if_modifyHead]
  by_cases hseparator : item = separator
  · simp [hseparator]
  · cases hsplit : items.splitOn separator with
    | nil => exact absurd hsplit (List.splitOn_ne_nil _ _)
    | cons first rest => simp [hseparator]

theorem nil_mem_splitOn_iff_tail (items : List Item) :
    [] ∈ items.splitOn separator ↔ items = [] ∨ items.head? = some separator ∨
      [] ∈ (items.splitOn separator).tail := by
  cases items with
  | nil => simp
  | cons item items =>
      rw [List.splitOn_cons_eq_if_modifyHead]
      by_cases hseparator : item = separator
      · simp [hseparator]
      · cases hsplit : items.splitOn separator with
        | nil => exact absurd hsplit (List.splitOn_ne_nil _ _)
        | cons first rest => simp [hseparator]

/-- An empty segment after the first ends the list or lies between two separators. -/
theorem nil_mem_tail_splitOn (items : List Item) :
    [] ∈ (items.splitOn separator).tail ↔
      items.getLast? = some separator ∨ [separator, separator] <:+: items := by
  induction items with
  | nil => simp
  | cons item items ih =>
      rw [tail_splitOn_cons]
      by_cases hseparator : item = separator
      · subst hseparator
        rw [if_pos rfl, nil_mem_splitOn_iff_tail, ih, List.infix_cons_iff]
        cases items with
        | nil => simp
        | cons next rest =>
            simp only [reduceCtorEq, List.head?_cons, Option.some.injEq, false_or,
              List.getLast?_cons_cons, List.cons_prefix_cons, List.nil_prefix, true_and, and_true,
              eq_comm (a := item)]
            tauto
      · rw [if_neg hseparator, ih, List.infix_cons_iff]
        cases items with
        | nil => simp [hseparator]
        | cons next rest =>
            simp [List.getLast?_cons_cons, List.cons_prefix_cons, Ne.symm hseparator]

/-- A list has an empty segment where a separator stands at an end or next to another. -/
theorem nil_mem_splitOn (items : List Item) : [] ∈ items.splitOn separator ↔
    items = [] ∨ items.head? = some separator ∨ items.getLast? = some separator ∨
      [separator, separator] <:+: items := by
  rw [nil_mem_splitOn_iff_tail, nil_mem_tail_splitOn]

end Empty

end Kapprofiler.Foundation
