import Mathlib.Data.List.Chain
import Mathlib.Data.List.Induction

/-! # The run at the end of a list

The longest suffix in which neighbours are related, counted as a loop over the list counts
it: an element that is related to the one before it lengthens the run, and any other begins
a new one.
-/

namespace Kapprofiler.Foundation

universe u

variable {α : Type u} {R : α → α → Prop}

/-- The last `count` elements are there and each is related to the next. -/
def EndsRun (R : α → α → Prop) (count : Nat) (list : List α) : Prop :=
  ∃ run, run <:+ list ∧ run.length = count ∧ run.IsChain R

theorem endsRun_zero (list : List α) : EndsRun R 0 list :=
  ⟨[], List.nil_suffix, rfl, .nil⟩

/-- A run that ends with an element is a shorter one before it that the element continues. -/
theorem endsRun_concat {count : Nat} {list : List α} {element : α} :
    EndsRun R (count + 1) (list ++ [element]) ↔
      EndsRun R count list ∧ (0 < count → ∀ previous ∈ list.getLast?, R previous element) := by
  constructor
  · rintro ⟨run, hrun, hlength, hchain⟩
    rcases List.suffix_concat_iff.mp hrun with rfl | ⟨earlier, rfl, hearlier⟩
    · simp at hlength
    rw [List.isChain_append] at hchain
    obtain rfl : earlier.length = count := by simpa using hlength
    refine ⟨⟨earlier, hearlier, rfl, hchain.1⟩, ?_⟩
    intro hpos previous hprevious
    obtain ⟨before, rfl⟩ := hearlier
    rw [List.getLast?_append_of_ne_nil _ (List.ne_nil_of_length_pos hpos)] at hprevious
    exact hchain.2.2 previous hprevious element rfl
  · rintro ⟨⟨earlier, hearlier, rfl, hchain⟩, hrelated⟩
    refine ⟨earlier ++ [element], ?_, by simp, ?_⟩
    · obtain ⟨before, rfl⟩ := hearlier
      exact ⟨before, by simp⟩
    · rw [List.isChain_append]
      refine ⟨hchain, .singleton element, ?_⟩
      intro previous hprevious next hnext
      obtain rfl : element = next := by simpa using hnext
      have hpos : 0 < earlier.length := List.length_pos_of_mem (List.mem_of_getLast? hprevious)
      obtain ⟨before, rfl⟩ := hearlier
      rw [List.getLast?_append_of_ne_nil _ (List.ne_nil_of_length_pos hpos)] at hrelated
      exact hrelated hpos previous hprevious

/-- The longest run at the end has this length. -/
def CountsRun (R : α → α → Prop) (list : List α) (count : Nat) : Prop :=
  ∀ length, EndsRun R length list ↔ length ≤ count

/-- The counts agree after an element if they agree on what its run has before it. -/
theorem countsRun_concat {list : List α} {element : α} {count : Nat}
    (hcount : ∀ length, EndsRun R length list ∧
      (0 < length → ∀ previous ∈ list.getLast?, R previous element) ↔ length ≤ count) :
    CountsRun R (list ++ [element]) (count + 1) := by
  intro length
  cases length with
  | zero => exact iff_of_true (endsRun_zero _) (Nat.zero_le _)
  | succ length => rw [endsRun_concat, hcount, Nat.succ_le_succ_iff]

theorem countsRun_singleton (element : α) : CountsRun R [element] 1 := by
  apply @countsRun_concat _ _ [] element 0
  intro length
  constructor
  · rintro ⟨⟨run, hrun, rfl, _⟩, _⟩
    rw [List.suffix_nil.mp hrun, List.length_nil]
  · intro hzero
    obtain rfl := Nat.le_zero.mp hzero
    exact ⟨endsRun_zero [], by simp⟩

theorem CountsRun.continue {list : List α} {previous element : α} {count : Nat}
    (hcounts : CountsRun R list count) (hprevious : list.getLast? = some previous)
    (hrelated : R previous element) : CountsRun R (list ++ [element]) (count + 1) := by
  apply countsRun_concat
  intro length
  rw [hcounts length, hprevious]
  exact and_iff_left fun _ => by simpa using hrelated

theorem CountsRun.restart {list : List α} {previous element : α}
    (hprevious : list.getLast? = some previous) (hunrelated : ¬ R previous element) :
    CountsRun R (list ++ [element]) 1 := by
  apply @countsRun_concat _ _ list element 0
  intro length
  rw [hprevious, Nat.le_zero]
  constructor
  · rintro ⟨_, hrelated⟩
    by_contra hpos
    exact hunrelated (hrelated (Nat.pos_of_ne_zero hpos) previous rfl)
  · rintro rfl
    exact ⟨endsRun_zero list, by simp⟩

end Kapprofiler.Foundation
