import Mathlib.Data.List.Nodup
import Mathlib.Data.List.Induction
import Mathlib.Data.List.Pairwise
import Kapprofiler.Foundation.AppendWhen

/-! # Accumulating what is new

A loop that appends an entry unless one already kept equals it. How much such a loop
identifies depends on the equality it uses: one that tells all entries apart leaves
the set of entries as it is, and each of them where it first occurred.
-/

namespace Kapprofiler.Foundation

universe uEntry

variable {Entry : Type uEntry} {equals : Entry → Entry → Bool} {clash : Entry → Entry → Prop}

/-- Append the entries that no entry of the list equals, one by one. -/
def appendNew (equals : Entry → Entry → Bool) : List Entry → List Entry → List Entry :=
  List.foldl (appendWhen (fun kept entry => !kept.any fun other => equals other entry) id)

theorem appendNew_append (kept first second : List Entry) :
    appendNew equals kept (first ++ second) =
      appendNew equals (appendNew equals kept first) second :=
  List.foldl_append

/-- One iteration appends the entry unless an entry of the list equals it. -/
theorem appendNew_singleton (kept : List Entry) (entry : Entry) :
    (∃ other ∈ kept, equals other entry = true) ∧ appendNew equals kept [entry] = kept ∨
      (∀ other ∈ kept, equals other entry = false) ∧
        appendNew equals kept [entry] = kept ++ [entry] := by
  unfold appendNew
  rw [List.foldl_cons, List.foldl_nil]
  cases hany : kept.any fun other => equals other entry with
  | true =>
      refine Or.inl ⟨List.any_eq_true.mp hany, appendWhen_of_rejects ?_⟩
      rw [hany, Bool.not_true]
  | false =>
      refine Or.inr ⟨?_, appendWhen_of_admits ?_⟩
      · intro other hother
        exact Bool.eq_false_iff.mpr (List.any_eq_false.mp hany other hother)
      · rw [hany, Bool.not_false]

theorem prefix_appendNew (kept entries : List Entry) :
    kept <+: appendNew equals kept entries :=
  prefix_foldl_appendWhen entries kept

theorem mem_or_mem_of_mem_appendNew {kept entries : List Entry} {entry : Entry}
    (hentry : entry ∈ appendNew equals kept entries) : entry ∈ kept ∨ entry ∈ entries := by
  rcases mem_foldl_appendWhen hentry with hkept | ⟨other, hother, heq⟩
  · exact Or.inl hkept
  · exact Or.inr (heq ▸ hother)

/-! ## Entries that are equal -/

/-- Every entry is equalled by one that is kept. -/
theorem exists_equals_appendNew (hrefl : ∀ entry, equals entry entry = true)
    {kept entries : List Entry} {entry : Entry} (hentry : entry ∈ entries) :
    ∃ other ∈ appendNew equals kept entries, equals other entry = true := by
  refine (foldl_appendWhen_accounts
    (fun kept entry => ∃ other ∈ kept, equals other entry = true) ?_ ?_ ?_).2 entry hentry
  · intro kept new entry hkept
    obtain ⟨other, hother, hequals⟩ := hkept
    exact ⟨other, List.mem_append_left _ hother, hequals⟩
  · intro kept entry
    exact ⟨entry, List.mem_append_right _ List.mem_cons_self, hrefl entry⟩
  · intro kept entry hrejects
    rw [Bool.not_eq_false', List.any_eq_true] at hrejects
    exact hrejects

/-- No entry that is appended equals an earlier one. -/
theorem appendNew_eq_append (kept entries : List Entry) :
    ∃ added, appendNew equals kept entries = kept ++ added ∧
      added.Pairwise (fun first second => equals first second = false) ∧
      ∀ first ∈ kept, ∀ second ∈ added, equals first second = false := by
  induction entries using List.reverseRecOn with
  | nil => exact ⟨[], (List.append_nil kept).symm, List.Pairwise.nil, by simp⟩
  | append_singleton entries entry ih =>
      obtain ⟨added, heq, hadded, hkept⟩ := ih
      rw [appendNew_append, heq]
      rcases appendNew_singleton (kept ++ added) entry with ⟨_, hknown⟩ | ⟨hnew, happend⟩
      · exact ⟨added, hknown, hadded, hkept⟩
      · refine ⟨added ++ [entry], ?_, ?_, ?_⟩
        · rw [happend, List.append_assoc]
        · refine List.pairwise_append.mpr ⟨hadded, List.pairwise_singleton _ _, ?_⟩
          intro first hfirst second hsecond
          rw [List.mem_singleton.mp hsecond]
          exact hnew first (List.mem_append_right _ hfirst)
        · intro first hfirst second hsecond
          rcases List.mem_append.mp hsecond with hsecond | hsecond
          · exact hkept first hfirst second hsecond
          · rw [List.mem_singleton.mp hsecond]
            exact hnew first (List.mem_append_left _ hfirst)

/-- Two entries that are equal without being the same are both kept only if they were
there from the start. -/
theorem mem_of_equals_of_ne (hsymm : ∀ a b, equals a b = true → equals b a = true)
    {kept entries : List Entry} {first second : Entry}
    (hfirst : first ∈ appendNew equals kept entries)
    (hsecond : second ∈ appendNew equals kept entries)
    (hequals : equals first second = true) (hne : first ≠ second) : first ∈ kept := by
  obtain ⟨added, heq, hadded, hkept⟩ := @appendNew_eq_append _ equals kept entries
  rw [heq] at hfirst hsecond
  rcases List.mem_append.mp hfirst with hfirst | hfirst
  · exact hfirst
  rcases List.mem_append.mp hsecond with hsecond | hsecond
  · have hsame := hkept second hsecond first hfirst
    rw [hsymm first second hequals] at hsame
    exact absurd hsame (by decide)
  · have hdiffer : Std.Symm fun a b => equals a b = false :=
      ⟨fun a b h => Bool.eq_false_iff.mpr fun hba => Bool.eq_false_iff.mp h (hsymm b a hba)⟩
    have hsame := hadded.forall hfirst hsecond hne
    rw [hequals] at hsame
    exact absurd hsame (by decide)

/-- An entry equals one that is kept exactly if it equals one of all. -/
theorem exists_equals_appendNew_iff (hrefl : ∀ entry, equals entry entry = true)
    (htrans : ∀ a b c, equals a b = true → equals b c = true → equals a c = true)
    {kept entries : List Entry} {entry : Entry} :
    (∃ other ∈ appendNew equals kept entries, equals other entry = true) ↔
      ∃ other ∈ kept ++ entries, equals other entry = true := by
  constructor
  · rintro ⟨other, hother, hequals⟩
    exact ⟨other, List.mem_append.mpr (mem_or_mem_of_mem_appendNew hother), hequals⟩
  · rintro ⟨other, hother, hequals⟩
    rcases List.mem_append.mp hother with hkept | hentries
    · exact ⟨other, (prefix_appendNew kept entries).subset hkept, hequals⟩
    · obtain ⟨earlier, hearlier, hsame⟩ :=
        @exists_equals_appendNew _ equals hrefl kept entries other hentries
      exact ⟨earlier, hearlier, htrans _ _ _ hsame hequals⟩

/-- The entry occurs, and nothing before it equals it. -/
def OccursFirst (equals : Entry → Entry → Bool) (kept entries : List Entry) (entry : Entry) :
    Prop :=
  ∃ before after, entries = before ++ entry :: after ∧
    ∀ earlier ∈ kept ++ before, equals earlier entry = false

theorem occursFirst_snoc {kept entries : List Entry} {last entry : Entry} :
    OccursFirst equals kept (entries ++ [last]) entry ↔
      OccursFirst equals kept entries entry ∨
        entry = last ∧ ∀ earlier ∈ kept ++ entries, equals earlier entry = false := by
  constructor
  · rintro ⟨before, after, heq, hfirst⟩
    rcases List.eq_nil_or_concat after with rfl | ⟨after, other, rfl⟩
    · obtain ⟨rfl, hlast⟩ := List.append_inj' heq rfl
      exact Or.inr ⟨(List.cons.inj hlast).1.symm, hfirst⟩
    · rw [List.concat_eq_append, ← List.cons_append, ← List.append_assoc] at heq
      obtain ⟨rfl, _⟩ := List.append_inj' heq rfl
      exact Or.inl ⟨before, after, rfl, hfirst⟩
  · rintro (⟨before, after, rfl, hfirst⟩ | ⟨rfl, hfirst⟩)
    · exact ⟨before, after ++ [last], by simp, hfirst⟩
    · exact ⟨entries, [], rfl, hfirst⟩

/-- What is kept stood there from the start, or equals nothing before it. -/
theorem mem_appendNew_iff (hrefl : ∀ entry, equals entry entry = true)
    (htrans : ∀ a b c, equals a b = true → equals b c = true → equals a c = true)
    {kept entries : List Entry} {entry : Entry} :
    entry ∈ appendNew equals kept entries ↔
      entry ∈ kept ∨ OccursFirst equals kept entries entry := by
  induction entries using List.reverseRecOn with
  | nil => simp [appendNew, OccursFirst]
  | append_singleton entries last ih =>
      have hknown : (∃ other ∈ appendNew equals kept entries, equals other last = true) ↔
          ∃ other ∈ kept ++ entries, equals other last = true :=
        exists_equals_appendNew_iff hrefl htrans
      rw [occursFirst_snoc, ← or_assoc, ← ih, appendNew_append]
      rcases appendNew_singleton (appendNew equals kept entries) last with
        ⟨hsome, heq⟩ | ⟨hnone, heq⟩
      · obtain ⟨other, hother, hequals⟩ := hknown.mp hsome
        rw [heq, or_iff_left]
        rintro ⟨rfl, hfirst⟩
        rw [hfirst other hother] at hequals
        cases hequals
      · rw [heq, List.mem_append, List.mem_singleton]
        refine or_congr_right (iff_self_and.mpr ?_)
        rintro rfl earlier hearlier
        by_contra hequals
        obtain ⟨other, hother, hsame⟩ :=
          hknown.mpr ⟨earlier, hearlier, Bool.of_not_eq_false hequals⟩
        rw [hnone other hother] at hsame
        cases hsame

/-! ## An equality that tells all entries apart -/

section Lawful

variable (hequals : ∀ a b, equals a b = true ↔ a = b)

include hequals

theorem mem_appendNew {kept entries : List Entry} {entry : Entry} :
    entry ∈ appendNew equals kept entries ↔ entry ∈ kept ∨ entry ∈ entries := by
  constructor
  · exact mem_or_mem_of_mem_appendNew
  · intro hentry
    rcases hentry with hkept | hentry
    · exact (prefix_appendNew kept entries).subset hkept
    · have hrefl : ∀ entry, equals entry entry = true := fun entry => (hequals entry entry).mpr rfl
      obtain ⟨other, hother, heq⟩ :=
        @exists_equals_appendNew _ equals hrefl kept entries entry hentry
      rwa [← (hequals other entry).mp heq]

theorem nodup_appendNew {kept : List Entry} (hkept : kept.Nodup) (entries : List Entry) :
    (appendNew equals kept entries).Nodup := by
  apply pairwise_foldl_appendWhen _ hkept
  intro kept entry hadmits other hother heq
  rw [Bool.not_eq_true', Bool.eq_false_iff] at hadmits
  exact hadmits (List.any_eq_true.mpr ⟨other, hother, (hequals other entry).mpr heq⟩)

/-- Only an entry that has occurred before is not appended. -/
theorem appendNew_snoc (kept entries : List Entry) (entry : Entry) :
    (entry ∈ kept ∨ entry ∈ entries) ∧
        appendNew equals kept (entries ++ [entry]) = appendNew equals kept entries ∨
      ¬ (entry ∈ kept ∨ entry ∈ entries) ∧
        appendNew equals kept (entries ++ [entry]) = appendNew equals kept entries ++ [entry] := by
  rw [appendNew_append, ← mem_appendNew hequals]
  rcases appendNew_singleton (appendNew equals kept entries) entry with
    ⟨⟨other, hother, heq⟩, hknown⟩ | ⟨hnew, happend⟩
  · rw [(hequals other entry).mp heq] at hother
    exact Or.inl ⟨hother, hknown⟩
  · refine Or.inr ⟨?_, happend⟩
    intro hentry
    exact Bool.eq_false_iff.mp (hnew entry hentry) ((hequals entry entry).mpr rfl)

/-- Entries without repetition are all appended. -/
theorem appendNew_nil_of_nodup {entries : List Entry} (hnodup : entries.Nodup) :
    appendNew equals [] entries = entries := by
  induction entries using List.reverseRecOn with
  | nil => rfl
  | append_singleton entries entry ih =>
      obtain ⟨hentries, _, hdisjoint⟩ := List.nodup_append.mp hnodup
      rcases appendNew_snoc hequals [] entries entry with ⟨hknown, _⟩ | ⟨_, happend⟩
      · have hentry : entry ∈ entries := hknown.resolve_left List.not_mem_nil
        exact absurd rfl (hdisjoint entry hentry entry List.mem_cons_self)
      · rw [happend, ih hentries]

end Lawful

/-! ## Entries that clash -/

/-- An entry that clashes with an earlier one is a repetition: it had already occurred
by then. -/
def ClashesRepeated (clash : Entry → Entry → Prop) (entries : List Entry) : Prop :=
  ∀ before first after, entries = before ++ first :: after →
    ∀ second ∈ after, clash first second → second ∈ before ++ [first]

theorem clashesRepeated_snoc (entries : List Entry) (entry : Entry) :
    ClashesRepeated clash (entries ++ [entry]) ↔
      ClashesRepeated clash entries ∧
        ∀ before first after, entries = before ++ first :: after → clash first entry →
          entry ∈ before ++ [first] := by
  constructor
  · intro h
    constructor
    · intro before first after heq second hsecond
      exact h before first (after ++ [entry]) (by simp [heq]) second
        (List.mem_append_left _ hsecond)
    · intro before first after heq
      exact h before first (after ++ [entry]) (by simp [heq]) entry
        (List.mem_append_right _ List.mem_cons_self)
  · intro h before first after heq second hsecond hclash
    obtain ⟨hentries, hentry⟩ := h
    -- The split is one of the entries before the last, unless nothing follows it.
    cases after using List.reverseRecOn with
    | nil => cases hsecond
    | append_singleton after last =>
        have hinit : entries ++ [entry] = (before ++ first :: after) ++ [last] := by
          rw [heq, List.append_assoc, List.cons_append]
        obtain ⟨hinit, hlast⟩ := List.append_inj' hinit rfl
        rw [List.singleton_inj] at hlast
        rcases List.mem_append.mp hsecond with hafter | hlast'
        · exact hentries before first after hinit second hafter hclash
        · rw [List.mem_singleton.mp hlast', ← hlast] at hclash ⊢
          exact hentry before first after hinit hclash

/-- What the loop keeps has no clashes exactly when all clashes were repetitions. -/
theorem pairwise_appendNew_iff (hequals : ∀ a b, equals a b = true ↔ a = b)
    (entries : List Entry) :
    (appendNew equals [] entries).Pairwise (fun first second => ¬ clash first second) ↔
      ClashesRepeated clash entries := by
  induction entries using List.reverseRecOn with
  | nil =>
      refine iff_of_true List.Pairwise.nil ?_
      intro before first after heq
      simp at heq
  | append_singleton entries entry ih =>
      rw [clashesRepeated_snoc, ← ih]
      rcases appendNew_snoc hequals [] entries entry with ⟨hknown, heq⟩ | ⟨hnew, heq⟩
      · rw [heq]
        -- A repeated entry is not appended, and clashes no more than it did before.
        refine (and_iff_left_of_imp ?_).symm
        intro hpairwise before first after hentries hclash
        have hmem : entry ∈ entries := hknown.resolve_left List.not_mem_nil
        rw [hentries, List.append_cons, List.mem_append] at hmem
        rcases hmem with hbefore | hafter
        · exact hbefore
        · exact ih.mp hpairwise before first after hentries entry hafter hclash
      · rw [heq, List.pairwise_append]
        refine and_congr_right fun _ => ?_
        constructor
        · intro h before first after hentries hclash
          have hfirst : first ∈ appendNew equals [] entries :=
            (mem_appendNew hequals).mpr (Or.inr (by simp [hentries]))
          exact absurd hclash (h.2 first hfirst entry List.mem_cons_self)
        · intro h
          refine ⟨List.pairwise_singleton _ _, ?_⟩
          intro first hfirst second hsecond hclash
          rw [List.mem_singleton.mp hsecond] at hclash
          have hentry : first ∈ entries :=
            ((mem_appendNew hequals).mp hfirst).resolve_left List.not_mem_nil
          obtain ⟨before, after, hentries⟩ := List.append_of_mem hentry
          refine hnew (Or.inr ?_)
          rw [hentries, List.append_cons]
          exact List.mem_append_left _ (h before first after hentries hclash)

/-- Where clashing is symmetric, clashing entries have to be the same. -/
theorem clashesRepeated_iff_of_symmetric [DecidableEq Entry]
    (hsymm : ∀ a b, clash a b → clash b a) (entries : List Entry) :
    ClashesRepeated clash entries ↔
      ∀ first ∈ entries, ∀ second ∈ entries, clash first second → first = second := by
  have hequals : ∀ a b : Entry, decide (a = b) = true ↔ a = b := fun _ _ => decide_eq_true_iff
  rw [← pairwise_appendNew_iff hequals]
  constructor
  · intro hpairwise first hfirst second hsecond hclash
    by_contra hne
    have hapart : Std.Symm fun a b => ¬ clash a b := ⟨fun a b h hba => h (hsymm b a hba)⟩
    exact hpairwise.forall
      ((mem_appendNew hequals).mpr (Or.inr hfirst))
      ((mem_appendNew hequals).mpr (Or.inr hsecond)) hne hclash
  · intro h
    apply (nodup_appendNew hequals List.nodup_nil entries).imp_of_mem
    intro first second hfirst hsecond hne hclash
    exact hne (h first (((mem_appendNew hequals).mp hfirst).resolve_left List.not_mem_nil)
      second (((mem_appendNew hequals).mp hsecond).resolve_left List.not_mem_nil) hclash)

end Kapprofiler.Foundation
