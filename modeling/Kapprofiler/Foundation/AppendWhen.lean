import Mathlib.Data.List.Basic

/-! # Accumulating the items that a test admits

A loop that appends an item to the list it is building, unless a test on that
list rejects the item. What such a loop keeps is determined by the test alone:
nothing kept is dropped again, nothing is invented, and a rejected item is one
that the list built so far already accounts for.
-/

namespace Kapprofiler.Foundation

universe uItem uEntry

variable {Item : Type uItem} {Entry : Type uEntry}

/-- One iteration of the loop. -/
def appendWhen (admits : List Entry → Item → Bool) (make : Item → Entry)
    (kept : List Entry) (item : Item) : List Entry :=
  if admits kept item then kept ++ [make item] else kept

variable {admits : List Entry → Item → Bool} {make : Item → Entry}

theorem appendWhen_of_admits {kept : List Entry} {item : Item}
    (hadmits : admits kept item = true) :
    appendWhen admits make kept item = kept ++ [make item] :=
  if_pos hadmits

theorem appendWhen_of_rejects {kept : List Entry} {item : Item}
    (hrejects : admits kept item = false) : appendWhen admits make kept item = kept :=
  if_neg (by simp [hrejects])

theorem prefix_foldl_appendWhen (items : List Item) (kept : List Entry) :
    kept <+: items.foldl (appendWhen admits make) kept := by
  induction items generalizing kept with
  | nil => exact List.prefix_refl kept
  | cons item rest ih =>
      refine List.IsPrefix.trans ?_ (ih (appendWhen admits make kept item))
      unfold appendWhen
      split
      · exact List.prefix_append kept [make item]
      · exact List.prefix_refl kept

/-- What is kept was there from the start, or was made of an item that the test admitted
into some list. -/
theorem exists_admitted_of_mem {items : List Item} {kept : List Entry} {entry : Entry}
    (hentry : entry ∈ items.foldl (appendWhen admits make) kept) :
    entry ∈ kept ∨ ∃ item ∈ items, (∃ before, admits before item = true) ∧ entry = make item := by
  induction items generalizing kept with
  | nil => exact Or.inl hentry
  | cons item rest ih =>
      rcases ih hentry with hkept | ⟨other, hother, hadmitted, heq⟩
      · unfold appendWhen at hkept
        split at hkept
        next hadmits =>
          rcases List.mem_append.mp hkept with hkept | hnew
          · exact Or.inl hkept
          · exact Or.inr ⟨item, List.mem_cons_self, ⟨kept, hadmits⟩, List.mem_singleton.mp hnew⟩
        next => exact Or.inl hkept
      · exact Or.inr ⟨other, List.mem_cons_of_mem item hother, hadmitted, heq⟩

theorem mem_foldl_appendWhen {items : List Item} {kept : List Entry} {entry : Entry}
    (hentry : entry ∈ items.foldl (appendWhen admits make) kept) :
    entry ∈ kept ∨ ∃ item ∈ items, entry = make item := by
  refine (exists_admitted_of_mem hentry).imp_right ?_
  rintro ⟨item, hitem, _, heq⟩
  exact ⟨item, hitem, heq⟩

theorem length_foldl_appendWhen_le (items : List Item) (kept : List Entry) :
    (items.foldl (appendWhen admits make) kept).length ≤ kept.length + items.length := by
  induction items generalizing kept with
  | nil => exact Nat.le_refl _
  | cons item rest ih =>
      have hitem : (appendWhen admits make kept item).length ≤ kept.length + 1 := by
        unfold appendWhen
        split
        · simp
        · omega
      have hrest := ih (appendWhen admits make kept item)
      simp only [List.foldl_cons, List.length_cons]
      omega

/-- Completeness: if a list accounts for an item once the item is appended, and
already does so whenever the test rejects the item, and appending other entries
does not undo it, then the finished list accounts for every item. -/
theorem foldl_appendWhen_accounts (accounts : List Entry → Item → Prop)
    (hmono : ∀ kept entry item, accounts kept item → accounts (kept ++ [entry]) item)
    (hadmits : ∀ kept item, accounts (kept ++ [make item]) item)
    (hrejects : ∀ kept item, admits kept item = false → accounts kept item)
    {items : List Item} {kept : List Entry} :
    (∀ item, accounts kept item →
      accounts (items.foldl (appendWhen admits make) kept) item) ∧
    ∀ item ∈ items, accounts (items.foldl (appendWhen admits make) kept) item := by
  induction items generalizing kept with
  | nil => exact ⟨fun _ h => h, fun _ hmem => absurd hmem List.not_mem_nil⟩
  | cons item rest ih =>
      have hstep : ∀ other, accounts kept other →
          accounts (appendWhen admits make kept item) other := by
        intro other hother
        unfold appendWhen
        split
        · exact hmono kept _ other hother
        · exact hother
      have hitem : accounts (appendWhen admits make kept item) item := by
        cases htest : admits kept item with
        | true => rw [appendWhen_of_admits htest]; exact hadmits kept item
        | false => rw [appendWhen_of_rejects htest]; exact hrejects kept item htest
      refine ⟨fun other hother => ih.1 other (hstep other hother), ?_⟩
      intro other hother
      rcases List.mem_cons.mp hother with rfl | hrest
      · exact ih.1 other hitem
      · exact ih.2 other hrest

/-- A relation that the test establishes between the entries already kept and
the one it admits holds throughout the finished list. -/
theorem pairwise_foldl_appendWhen {related : Entry → Entry → Prop}
    (hadmits : ∀ kept item, admits kept item = true →
      ∀ entry ∈ kept, related entry (make item))
    {items : List Item} {kept : List Entry} (hkept : kept.Pairwise related) :
    (items.foldl (appendWhen admits make) kept).Pairwise related := by
  induction items generalizing kept with
  | nil => exact hkept
  | cons item rest ih =>
      apply ih
      unfold appendWhen
      split
      next htest =>
        refine List.pairwise_append.mpr ⟨hkept, List.pairwise_singleton _ _, ?_⟩
        intro entry hentry other hother
        rw [List.mem_singleton.mp hother]
        exact hadmits kept item htest entry hentry
      next => exact hkept

/-! ## A limit on the list -/

/-- A test that also rejects once the list is full cuts the list off there. -/
theorem foldl_appendWhen_limit (limit : Nat) (items : List Item) {kept : List Entry}
    (hkept : kept.length ≤ limit) :
    items.foldl (appendWhen (fun kept item => decide (kept.length < limit) && admits kept item)
        make) kept =
      (items.foldl (appendWhen admits make) kept).take limit := by
  induction items generalizing kept with
  | nil => exact (List.take_of_length_le hkept).symm
  | cons item rest ih =>
      rw [List.foldl_cons, List.foldl_cons]
      rcases Nat.lt_or_eq_of_le hkept with hlt | hfull
      · have hsame : appendWhen (fun kept item => decide (kept.length < limit) &&
            admits kept item) make kept item = appendWhen admits make kept item := by
          simp only [appendWhen, hlt, decide_true, Bool.true_and]
        rw [hsame]
        apply ih
        unfold appendWhen
        split
        · rw [List.length_append]
          exact hlt
        · exact hkept
      · -- A full list stays as it is, and it is where the other one is cut off.
        rw [appendWhen_of_rejects (by simp [hfull]), ih hkept, ← hfull]
        rw [← List.prefix_iff_eq_take.mp (prefix_foldl_appendWhen rest kept)]
        exact List.prefix_iff_eq_take.mp (prefix_foldl_appendWhen (item :: rest) kept)

end Kapprofiler.Foundation
