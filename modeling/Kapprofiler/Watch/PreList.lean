import Mathlib.Data.List.Chain
import Kapprofiler.Watch.Loop

/-! # The list before a watch

A watcher with `preList` lists the objects of every namespace before it watches. One
comparison with the highest version seen so far decides both where the watch starts and
whether an object is reported, so that an object whose version is below one that was listed
before is not reported.
-/

namespace Kapprofiler.Watch

/-- What `Start` has done so far: the version in the watcher and the callbacks it made. -/
structure Listing where
  lastResourceVersion : String
  notified : List Notification
deriving DecidableEq

namespace Listing

/-- The body of the loop over the items of one namespace. -/
def item (listing : Listing) (item : Object) : Listing :=
  if isResourceVersionHigher item.resourceVersion listing.lastResourceVersion then
    { lastResourceVersion := item.resourceVersion
      notified := listing.notified ++ [.addFunc item] }
  else listing

/-- The loop over the namespaces. `none` is the error of a `List` call, at which it returns;
the flag is whether there was none. -/
def namespaces (list : String → Option (List Object)) : List String → Listing → Listing × Bool
  | [], listing => (listing, true)
  | ns :: rest, listing =>
      match list ns with
      | some items => namespaces list rest (items.foldl Listing.item listing)
      | none => (listing, false)

end Listing

/-- `Watcher.Start` up to the goroutine, which runs only if there was no error. The namespaces
and the objects of each are what `List` returns, and `watch` is what a watch that is opened
has to send; `none` is an error of theirs. -/
def Watcher.start (w : Watcher) (preList : Bool) (names : Option (List String))
    (list : String → Option (List Object)) (watch : String → Option (List Event)) :
    Listing × Option Loop :=
  if w.watcher then (⟨w.lastResourceVersion, []⟩, none)
  else match names with
    | none => (⟨w.lastResourceVersion, []⟩, none)
    | some names =>
        let (listing, listed) :=
          if preList then Listing.namespaces list names ⟨"", []⟩ else (⟨"", []⟩, true)
        if listed then
          (listing, (watch listing.lastResourceVersion).map
            (Loop.started listing.lastResourceVersion))
        else (listing, none)

/-- The version is a number, of any size. -/
def Object.Numeric (object : Object) : Prop :=
  (parseUint object.resourceVersion.toList).isSome = true

def Object.version (object : Object) : Nat :=
  (parseUint object.resourceVersion.toList).getD 0

/-- `AddFunc` was called once for each of the objects. -/
def Listing.ReportsEach (existing : List Object) (listing : Listing) : Prop :=
  listing.notified.Perm (existing.map .addFunc)

/-- The watch starts from the greatest version of the objects. -/
def Loop.StartsFromGreatest (existing : List Object) (loop : Loop) : Prop :=
  ∀ object ∈ existing, ∃ greatest ∈ existing,
    loop.resourceVersion = greatest.resourceVersion ∧ object.version ≤ greatest.version

/-- The versions ascend over all namespaces, in the order in which they are listed, and where
two of them are compared they fit into 64 bits. -/
def ListedInOrder (existing : List Object) : Prop :=
  existing.Pairwise (fun first second => first.version < second.version) ∧
    (2 ≤ existing.length → ∀ object ∈ existing, object.version < 2 ^ 63)

/-! ## Comparing versions -/

section Comparing

variable {object first second third : Object}

theorem parseUint_plus (digits : List Char) : parseUint ('+' :: digits) = none := by
  simp [parseUint, Char.isDigit]

theorem parseUint_minus (digits : List Char) : parseUint ('-' :: digits) = none := by
  simp [parseUint, Char.isDigit]

/-- `ParseInt` reads the number unless it is too large. -/
theorem Object.Numeric.parseInt (hnumeric : object.Numeric) :
    parseInt object.resourceVersion =
      if object.version < 2 ^ 63 then some (object.version : Int) else none := by
  obtain ⟨value, hvalue⟩ := Option.isSome_iff_exists.mp hnumeric
  rw [version, hvalue, Option.getD_some, Watch.parseInt]
  split
  next digits hdigits =>
    rw [hdigits, parseUint_plus] at hvalue
    cases hvalue
  next digits hdigits =>
    rw [hdigits, parseUint_minus] at hvalue
    cases hvalue
  next => rw [hvalue, Option.bind_some]

theorem Object.Numeric.ne_empty (hnumeric : object.Numeric) : object.resourceVersion ≠ "" := by
  intro hempty
  rw [Numeric, hempty] at hnumeric
  exact absurd hnumeric (by decide)

theorem isResourceVersionHigher_iff (hfirst : first.Numeric) (hsecond : second.Numeric) :
    isResourceVersionHigher second.resourceVersion first.resourceVersion = true ↔
      first.version < 2 ^ 63 ∧ second.version < 2 ^ 63 ∧ first.version < second.version := by
  rw [isResourceVersionHigher, if_neg hfirst.ne_empty, hsecond.parseInt, hfirst.parseInt]
  by_cases hsmall : second.version < 2 ^ 63
  · rw [if_pos hsmall, and_iff_right hsmall]
    by_cases hbefore : first.version < 2 ^ 63
    · rw [if_pos hbefore, and_iff_right hbefore]
      dsimp only
      rw [decide_eq_true_iff, Int.ofNat_lt]
    · rw [if_neg hbefore]
      exact iff_of_false Bool.false_ne_true fun hall => hbefore hall.1
  · rw [if_neg hsmall]
    exact iff_of_false Bool.false_ne_true fun hall => hsmall hall.2.1

end Comparing

/-! ## What a listing reports -/

/-- The objects that the loops report, when this is the highest version seen before. -/
def reported (current : String) : List Object → List Object
  | [] => []
  | item :: rest =>
      if isResourceVersionHigher item.resourceVersion current then
        item :: reported item.resourceVersion rest
      else reported current rest

/-- The highest version that is seen after them. -/
def lastSeen (current : String) : List Object → String
  | [] => current
  | item :: rest =>
      if isResourceVersionHigher item.resourceVersion current then
        lastSeen item.resourceVersion rest
      else lastSeen current rest

section Listing

variable {current : String} {items existing : List Object}

theorem foldl_item (items : List Object) (listing : Listing) :
    items.foldl Listing.item listing =
      { lastResourceVersion := lastSeen listing.lastResourceVersion items
        notified := listing.notified ++
          (reported listing.lastResourceVersion items).map .addFunc } := by
  induction items generalizing listing with
  | nil => simp [lastSeen, reported]
  | cons item rest ih =>
      rw [List.foldl_cons, ih, Listing.item, lastSeen, reported]
      split
      · simp
      · rfl

/-- The loops over the namespaces and over their items are one over all items. -/
theorem namespaces_eq (items : String → List Object) (names : List String) (listing : Listing) :
    Listing.namespaces (fun ns => some (items ns)) names listing =
      ((names.flatMap items).foldl Listing.item listing, true) := by
  induction names generalizing listing with
  | nil => rfl
  | cons ns rest ih =>
      rw [Listing.namespaces, List.flatMap_cons, List.foldl_append]
      exact ih _

theorem start_eq {w : Watcher} (hw : w.watcher = false) (names : List String)
    (items : String → List Object) (watch : String → List Event) :
    w.start true (some names) (fun ns => some (items ns)) (fun version => some (watch version)) =
      let existing := names.flatMap items
      (⟨lastSeen "" existing, (reported "" existing).map .addFunc⟩,
        some (Loop.started (lastSeen "" existing) (watch (lastSeen "" existing)))) := by
  simp only [Watcher.start, hw, Bool.false_eq_true, if_false, if_true, namespaces_eq, foldl_item,
    List.nil_append, Option.map_some]

theorem reported_sublist (current : String) (items : List Object) :
    (reported current items).Sublist items := by
  induction items generalizing current with
  | nil => exact List.Sublist.refl _
  | cons item rest ih =>
      rw [reported]
      split
      · exact (ih _).cons_cons item
      · exact (ih _).cons item

/-- Every item is reported if and only if each one is higher than the one before. -/
theorem reported_eq_iff (current : String) (items : List Object) :
    reported current items = items ↔
      (∀ item ∈ items.head?, isResourceVersionHigher item.resourceVersion current = true) ∧
        items.IsChain fun first second =>
          isResourceVersionHigher second.resourceVersion first.resourceVersion = true := by
  induction items generalizing current with
  | nil => simp [reported]
  | cons item rest ih =>
      rw [reported]
      split
      next hhigher =>
        rw [List.cons.injEq, ih, List.isChain_cons]
        simp [hhigher]
      next hlower =>
        refine iff_of_false ?_ fun h => hlower (h.1 item rfl)
        intro heq
        -- what is left out cannot be made up for: the rest reports no more than itself
        have hlength := congrArg List.length heq
        have hle := (reported_sublist current rest).length_le
        rw [List.length_cons] at hlength
        omega

theorem reportsEach_iff {listing : Listing}
    (hnotified : listing.notified = (reported current existing).map .addFunc) :
    listing.ReportsEach existing ↔ reported current existing = existing := by
  rw [Listing.ReportsEach, hnotified]
  constructor
  · intro hperm
    have hlength := hperm.length_eq
    rw [List.length_map, List.length_map] at hlength
    exact (reported_sublist current existing).eq_of_length hlength
  · intro heq
    rw [heq]

end Listing

/-! ## Orders in which every object is reported -/

/-- The second version is higher than the first, as the comparison of 64-bit numbers has it. -/
def Object.Below (first second : Object) : Prop :=
  first.version < 2 ^ 63 ∧ second.version < 2 ^ 63 ∧ first.version < second.version

instance : Trans Object.Below Object.Below Object.Below where
  trans hfirst hsecond := ⟨hfirst.1, hsecond.2.1, hfirst.2.2.trans hsecond.2.2⟩

section Order

variable {existing : List Object}

theorem pairwise_below_iff : existing.Pairwise Object.Below ↔ ListedInOrder existing := by
  constructor
  · intro hpairwise
    refine ⟨hpairwise.imp fun hbelow => hbelow.2.2, ?_⟩
    intro hlength object hmem
    cases existing with
    | nil => cases hmem
    | cons first rest =>
        obtain ⟨hfirst, -⟩ := List.pairwise_cons.mp hpairwise
        rcases List.mem_cons.mp hmem with rfl | hlater
        · cases rest with
          | nil => exact absurd hlength (by simp)
          | cons second others => exact (hfirst second List.mem_cons_self).1
        · exact (hfirst object hlater).2.1
  · intro ⟨hascending, hsmall⟩
    have hlong : ∀ first second, [first, second].Sublist existing → 2 ≤ existing.length :=
      fun first second hsublist => hsublist.length_le
    rw [List.pairwise_iff_forall_sublist] at hascending ⊢
    intro first second hsublist
    have hlength := hlong first second hsublist
    exact ⟨hsmall hlength first (hsublist.subset List.mem_cons_self),
      hsmall hlength second (hsublist.subset (List.mem_cons_of_mem _ List.mem_cons_self)),
      hascending hsublist⟩

theorem reported_eq_iff_listedInOrder (hnumeric : ∀ object ∈ existing, object.Numeric) :
    reported "" existing = existing ↔ ListedInOrder existing := by
  have hfirst : ∀ item ∈ existing.head?, isResourceVersionHigher item.resourceVersion "" = true :=
    fun _ _ => rfl
  rw [reported_eq_iff, and_iff_right hfirst, ← pairwise_below_iff, ← List.isChain_iff_pairwise]
  apply List.IsChain.iff_of_mem_imp
  intro first second hfirst hsecond
  exact isResourceVersionHigher_iff (hnumeric first hfirst) (hnumeric second hsecond)

/-- In whatever order they are listed, the highest version that is seen is the greatest. -/
theorem lastSeen_greatest {items : List Object} {current : Object}
    (hnumeric : ∀ object ∈ current :: items, object.Numeric)
    (hsmall : ∀ object ∈ current :: items, object.version < 2 ^ 63) :
    ∃ greatest ∈ current :: items, lastSeen current.resourceVersion items =
        greatest.resourceVersion ∧
      ∀ object ∈ current :: items, object.version ≤ greatest.version := by
  induction items generalizing current with
  | nil =>
      refine ⟨current, List.mem_cons_self, rfl, ?_⟩
      intro object hmem
      rw [List.mem_singleton.mp hmem]
  | cons item rest ih =>
      obtain ⟨hcurrent, hitems⟩ := List.forall_mem_cons.mp hnumeric
      obtain ⟨hcurrentSmall, hitemsSmall⟩ := List.forall_mem_cons.mp hsmall
      have hhigher := isResourceVersionHigher_iff hcurrent (hitems item List.mem_cons_self)
      rw [lastSeen]
      split
      next htrue =>
        obtain ⟨greatest, hmem, heq, hgreatest⟩ := ih hitems hitemsSmall
        refine ⟨greatest, List.mem_cons_of_mem _ hmem, heq, ?_⟩
        rw [List.forall_mem_cons]
        refine ⟨?_, hgreatest⟩
        exact (hhigher.mp htrue).2.2.le.trans (hgreatest item List.mem_cons_self)
      next hfalse =>
        obtain ⟨greatest, hmem, heq, hgreatest⟩ := ih
          (List.forall_mem_cons.mpr ⟨hcurrent, (List.forall_mem_cons.mp hitems).2⟩)
          (List.forall_mem_cons.mpr ⟨hcurrentSmall, (List.forall_mem_cons.mp hitemsSmall).2⟩)
        obtain ⟨hfirst, hrest⟩ := List.forall_mem_cons.mp hgreatest
        refine ⟨greatest, ?_, heq, ?_⟩
        · rcases List.mem_cons.mp hmem with rfl | hlater
          · exact List.mem_cons_self
          · exact List.mem_cons_of_mem _ (List.mem_cons_of_mem _ hlater)
        · have hlower : item.version ≤ current.version := by
            by_contra hmore
            exact hfalse (hhigher.mpr ⟨hcurrentSmall, hitemsSmall item List.mem_cons_self,
              Nat.lt_of_not_le hmore⟩)
          rw [List.forall_mem_cons, List.forall_mem_cons]
          exact ⟨hfirst, hlower.trans hfirst, hrest⟩

theorem startsFromGreatest_of_small {loop : Loop}
    (hloop : loop.resourceVersion = lastSeen "" existing)
    (hnumeric : ∀ object ∈ existing, object.Numeric)
    (hsmall : ∀ object ∈ existing, object.version < 2 ^ 63) :
    loop.StartsFromGreatest existing := by
  cases existing with
  | nil => exact fun object hmem => nomatch hmem
  | cons first rest =>
      obtain ⟨greatest, hmem, heq, hgreatest⟩ := lastSeen_greatest hnumeric hsmall
      intro object hobject
      exact ⟨greatest, hmem, hloop.trans heq, hgreatest object hobject⟩

/-- A single object is not compared with anything. -/
theorem startsFromGreatest_of_listedInOrder {loop : Loop}
    (hloop : loop.resourceVersion = lastSeen "" existing)
    (hnumeric : ∀ object ∈ existing, object.Numeric) (horder : ListedInOrder existing) :
    loop.StartsFromGreatest existing := by
  by_cases hlength : 2 ≤ existing.length
  · exact startsFromGreatest_of_small hloop hnumeric (horder.2 hlength)
  · intro object hmem
    obtain ⟨first, rfl⟩ : ∃ first, existing = [first] := by
      apply List.length_eq_one_iff.mp
      have hpos := List.length_pos_of_mem hmem
      omega
    rw [List.mem_singleton.mp hmem]
    exact ⟨first, List.mem_singleton.mpr rfl, hloop, le_refl _⟩

/-- Every object is reported once, and the watch starts from the greatest version, if and only
if the versions ascend over all namespaces. -/
theorem preList_reports_iff (w : Watcher) (names : List String) (items : String → List Object)
    (watch : String → List Event) (hw : w.watcher = false)
    (hnumeric : ∀ object ∈ names.flatMap items, object.Numeric) :
    ∃ listing loop, w.start true (some names) (fun ns => some (items ns))
        (fun version => some (watch version)) = (listing, some loop) ∧
      (listing.ReportsEach (names.flatMap items) ∧
          loop.StartsFromGreatest (names.flatMap items) ↔
        ListedInOrder (names.flatMap items)) := by
  refine ⟨_, _, start_eq hw names items watch, ?_⟩
  rw [reportsEach_iff rfl, reported_eq_iff_listedInOrder hnumeric]
  constructor
  · intro hboth
    exact hboth.1
  · intro horder
    exact ⟨horder, startsFromGreatest_of_listedInOrder rfl hnumeric horder⟩

end Order

/-- The object of one namespace was changed before that of the other. -/
def twoNamespaces : String → List Object
  | "default" => [⟨"nginx", "20"⟩]
  | "kube-system" => [⟨"dns", "10"⟩]
  | _ => []

theorem older_first_reported : ∃ listing loop,
    (⟨false, "", false⟩ : Watcher).start true (some ["kube-system", "default"])
        (fun ns => some (twoNamespaces ns)) (fun _ => some []) = (listing, some loop) ∧
      listing.ReportsEach (["kube-system", "default"].flatMap twoNamespaces) ∧
      loop.StartsFromGreatest (["kube-system", "default"].flatMap twoNamespaces) := by
  have hnumeric : ∀ object ∈ ["kube-system", "default"].flatMap twoNamespaces,
      object.Numeric := by
    unfold Object.Numeric
    decide
  obtain ⟨listing, loop, hstart, hiff⟩ := preList_reports_iff ⟨false, "", false⟩
    ["kube-system", "default"] twoNamespaces (fun _ => []) rfl hnumeric
  refine ⟨listing, loop, hstart, hiff.mpr ?_⟩
  unfold ListedInOrder
  decide

/-- Listed the other way round the older object is not reported. -/
theorem newer_first_hides :
    ¬ ∀ (w : Watcher) (names : List String) (items : String → List Object)
      (watch : String → List Event) (listing : Listing) (loop : Loop), w.watcher = false →
      (∀ object ∈ names.flatMap items, object.Numeric) →
      w.start true (some names) (fun ns => some (items ns))
        (fun version => some (watch version)) = (listing, some loop) →
      listing.ReportsEach (names.flatMap items) ∧
        loop.StartsFromGreatest (names.flatMap items) := by
  intro hclaim
  have hnumeric : ∀ object ∈ ["default", "kube-system"].flatMap twoNamespaces,
      object.Numeric := by
    unfold Object.Numeric
    decide
  have hreports := (hclaim ⟨false, "", false⟩ ["default", "kube-system"] twoNamespaces
    (fun _ => []) _ _ rfl hnumeric rfl).1.length_eq
  exact absurd hreports (by decide)

end Kapprofiler.Watch
