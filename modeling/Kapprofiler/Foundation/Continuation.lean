import Mathlib.Data.List.Basic

/-! # Lists continued in place

A list is continued by another one if every item keeps its position, possibly changed
in a way that a relation allows, and new items come after the old ones.
-/

namespace Kapprofiler.Foundation

universe uItem

variable {Item : Type uItem} {grows : Item → Item → Prop} {before after : List Item}

/-- Whatever is at a position of `before` has grown into what `after` has there. -/
def Continues (grows : Item → Item → Prop) (before after : List Item) : Prop :=
  ∀ (position : Nat) item, before[position]? = some item →
    ∃ grown, after[position]? = some grown ∧ grows item grown

theorem continues_refl (hrefl : ∀ item, grows item item) (items : List Item) :
    Continues grows items items :=
  fun _ item hitem => ⟨item, hitem, hrefl item⟩

theorem continues_nil (after : List Item) : Continues grows [] after := by
  intro position item hitem
  rw [List.getElem?_nil] at hitem
  cases hitem

theorem Continues.cons {item grown : Item} (hitem : grows item grown)
    (hrest : Continues grows before after) :
    Continues grows (item :: before) (grown :: after) := by
  intro position other hother
  cases position with
  | zero =>
      obtain rfl := Option.some.inj hother
      exact ⟨grown, rfl, hitem⟩
  | succ position => exact hrest position other hother

/-- New items come last. -/
theorem Continues.append (hcontinues : Continues grows before after) (new : List Item) :
    Continues grows before (after ++ new) := by
  intro position item hitem
  obtain ⟨grown, hgrown, hgrows⟩ := hcontinues position item hitem
  obtain ⟨hlt, _⟩ := List.getElem?_eq_some_iff.mp hgrown
  exact ⟨grown, (List.getElem?_append_left hlt).trans hgrown, hgrows⟩

/-- Continuing twice, where two changes in a row amount to one of the third kind. -/
theorem Continues.trans {first second both : Item → Item → Prop}
    (hboth : ∀ item middle grown, first item middle → second middle grown → both item grown)
    {middle : List Item} (hfirst : Continues first before middle)
    (hsecond : Continues second middle after) : Continues both before after := by
  intro position item hitem
  obtain ⟨between, hbetween, hitemBetween⟩ := hfirst position item hitem
  obtain ⟨grown, hgrown, hbetweenGrown⟩ := hsecond position between hbetween
  exact ⟨grown, hgrown, hboth item between grown hitemBetween hbetweenGrown⟩

end Kapprofiler.Foundation
