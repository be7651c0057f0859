import Mathlib.Logic.Function.Basic
import Mathlib.Data.List.Range

/-! # Slices that share backing arrays

A slice is a window of a backing array: appending writes into the array while
the capacity lasts and copies into a larger one after that. Two slices of one
array see each other's writes, so a slice that is only read keeps its content
if no slice that is still appended to has its array.
-/

namespace Kapprofiler.Foundation

/-- A slice from the start of its array. -/
structure Slice where
  array : Nat
  length : Nat
  capacity : Nat
  within : length ≤ capacity

/-- The capacity that a full array is replaced with; how much room that leaves is the
runtime's choice. -/
structure Growth where
  capacity : Nat → Nat
  lt_capacity : ∀ full, full < capacity full

/-- The backing arrays, numbered as they are made. Elements never written have no value. -/
structure SliceHeap (T : Type*) where
  arrays : Nat → Nat → Option T
  next : Nat

/-- The slice without an array. -/
def Slice.nil : Slice := ⟨0, 0, 0, Nat.le_refl 0⟩

namespace SliceHeap

variable {T : Type*}

/-- Number 0 is not given to an array: it is what the nil slice has. -/
def empty : SliceHeap T := ⟨fun _ _ => none, 1⟩

def read (heap : SliceHeap T) (slice : Slice) : List T :=
  (List.range slice.length).filterMap (heap.arrays slice.array)

/-- `make([]T, 0, capacity)`. -/
def make (heap : SliceHeap T) (capacity : Nat) : Slice × SliceHeap T :=
  (⟨heap.next, 0, capacity, Nat.zero_le _⟩, { heap with next := heap.next + 1 })

/-- `append(slice, value)`. -/
def append (heap : SliceHeap T) (growth : Growth) (slice : Slice) (value : T) :
    Slice × SliceHeap T :=
  if hroom : slice.length < slice.capacity then
    ({ slice with length := slice.length + 1, within := hroom },
      { heap with
        arrays := Function.update heap.arrays slice.array
          (Function.update (heap.arrays slice.array) slice.length (some value)) })
  else
    -- the elements are copied, the old array stays as it is
    (⟨heap.next, slice.length + 1, growth.capacity slice.capacity,
        Nat.lt_of_le_of_lt slice.within (growth.lt_capacity _)⟩,
      { arrays := Function.update heap.arrays heap.next
          (Function.update (fun index => if index < slice.length then
            heap.arrays slice.array index else none) slice.length (some value))
        next := heap.next + 1 })

/-- Only the written array changes for a reader. -/
theorem read_congr {heap next : SliceHeap T} {slice : Slice}
    (hsame : ∀ index < slice.length,
      next.arrays slice.array index = heap.arrays slice.array index) :
    next.read slice = heap.read slice := by
  apply List.filterMap_congr
  intro index hindex
  exact hsame index (List.mem_range.mp hindex)

@[simp] theorem read_nil (heap : SliceHeap T) : heap.read .nil = [] := rfl

/-- A new array is empty. -/
@[simp] theorem read_make (heap : SliceHeap T) (capacity : Nat) :
    (heap.make capacity).2.read (heap.make capacity).1 = [] := rfl

variable (growth : Growth)

theorem read_append (heap : SliceHeap T) (slice : Slice) (value : T) :
    (heap.append growth slice value).2.read (heap.append growth slice value).1 =
      heap.read slice ++ [value] := by
  unfold append
  split
  next hroom =>
    simp only [read, Function.update_self, List.range_succ, List.filterMap_append]
    congr 1
    · apply List.filterMap_congr
      intro index hindex
      rw [Function.update_of_ne (Nat.ne_of_lt (List.mem_range.mp hindex))]
    · simp
  next hfull =>
    simp only [read, Function.update_self, List.range_succ, List.filterMap_append]
    congr 1
    · apply List.filterMap_congr
      intro index hindex
      have hlt := List.mem_range.mp hindex
      rw [Function.update_of_ne (Nat.ne_of_lt hlt), if_pos hlt]
    · simp

/-- An append writes to its own array or to a new one. -/
theorem read_append_other {heap : SliceHeap T} {slice other : Slice} (value : T)
    (hold : other.array < heap.next) (hapart : other.array ≠ slice.array) :
    (heap.append growth slice value).2.read other = heap.read other := by
  apply read_congr
  intro index _
  unfold append
  split
  · simp only [Function.update_of_ne hapart]
  · simp only [Function.update_of_ne (Nat.ne_of_lt hold)]

theorem append_array (heap : SliceHeap T) (slice : Slice) (value : T) :
    (heap.append growth slice value).1.array = slice.array ∧
        (heap.append growth slice value).2.next = heap.next ∨
      (heap.append growth slice value).1.array = heap.next ∧
        (heap.append growth slice value).2.next = heap.next + 1 := by
  unfold append
  split
  · exact .inl ⟨rfl, rfl⟩
  · exact .inr ⟨rfl, rfl⟩

theorem length_le_append (heap : SliceHeap T) (slice : Slice) (value : T) :
    slice.length ≤ (heap.append growth slice value).1.length := by
  unfold append
  split
  · exact Nat.le_succ _
  · exact Nat.le_succ _

/-- Every slice still appended to, found under its key in `live`, has an array of its own
that none of the slices in `kept` has. -/
structure Apart {Key : Type*} (heap : SliceHeap T) (live : Key → Option Slice)
    (kept : Slice → Prop) : Prop where
  live_lt : ∀ key slice, live key = some slice → slice.array < heap.next
  kept_lt : ∀ slice, kept slice → slice.array < heap.next
  injective : ∀ first second slice other, live first = some slice →
    live second = some other → slice.array = other.array → first = second
  disjoint : ∀ key slice other, live key = some slice → kept other →
    slice.array ≠ other.array

namespace Apart

variable {Key : Type*} [DecidableEq Key] {heap : SliceHeap T} {live : Key → Option Slice}
  {kept : Slice → Prop}

omit [DecidableEq Key] in
/-- Nothing is appended to yet, and the nil slice is all that there is to read. -/
theorem empty : Apart (SliceHeap.empty : SliceHeap T) (fun _ : Key => none)
    (fun slice => slice = .nil) where
  live_lt := nofun
  kept_lt := by
    rintro slice rfl
    exact Nat.zero_lt_one
  injective := nofun
  disjoint := nofun

omit [DecidableEq Key] in
theorem mono (hapart : heap.Apart live kept) {fewer : Slice → Prop}
    (hfewer : ∀ slice, fewer slice → kept slice) : heap.Apart live fewer where
  live_lt := hapart.live_lt
  kept_lt := fun slice hslice => hapart.kept_lt slice (hfewer slice hslice)
  injective := hapart.injective
  disjoint := fun key slice other hslice hother =>
    hapart.disjoint key slice other hslice (hfewer other hother)

/-- The slice of a key is replaced by one with an array that is new. -/
theorem replace (hapart : heap.Apart live kept) {next : SliceHeap T} {key : Key}
    {slice : Slice} (hslice : slice.array = heap.next) (hnext : next.next = heap.next + 1) :
    next.Apart (Function.update live key (some slice)) kept where
  live_lt := by
    intro other found hfound
    by_cases hother : other = key
    · subst hother
      rw [Function.update_self, Option.some.injEq] at hfound
      subst hfound
      omega
    · rw [Function.update_of_ne hother] at hfound
      have hlt := hapart.live_lt other found hfound
      omega
  kept_lt := by
    intro found hfound
    have hlt := hapart.kept_lt found hfound
    omega
  injective := by
    intro first second found other hfirst hsecond harray
    by_cases hfirstKey : first = key <;> by_cases hsecondKey : second = key
    · rw [hfirstKey, hsecondKey]
    -- The new array is none of the old ones: they were all allocated before.
    · subst hfirstKey
      rw [Function.update_self, Option.some.injEq] at hfirst
      rw [Function.update_of_ne hsecondKey] at hsecond
      have hlt := hapart.live_lt second other hsecond
      rw [← harray, ← hfirst, hslice] at hlt
      exact absurd hlt (Nat.lt_irrefl _)
    · subst hsecondKey
      rw [Function.update_self, Option.some.injEq] at hsecond
      rw [Function.update_of_ne hfirstKey] at hfirst
      have hlt := hapart.live_lt first found hfirst
      rw [harray, ← hsecond, hslice] at hlt
      exact absurd hlt (Nat.lt_irrefl _)
    · rw [Function.update_of_ne hfirstKey] at hfirst
      rw [Function.update_of_ne hsecondKey] at hsecond
      exact hapart.injective first second found other hfirst hsecond harray
  disjoint := by
    intro other found reader hfound hkept
    by_cases hother : other = key
    · subst hother
      rw [Function.update_self, Option.some.injEq] at hfound
      have hlt := hapart.kept_lt reader hkept
      rw [← hfound, hslice]
      exact Nat.ne_of_gt hlt
    · rw [Function.update_of_ne hother] at hfound
      exact hapart.disjoint other found reader hfound hkept

/-- The slice of a key may change while it stays in its array. -/
theorem extend (hapart : heap.Apart live kept) {next : SliceHeap T} {key : Key}
    {old slice : Slice} (hold : live key = some old) (hslice : slice.array = old.array)
    (hnext : next.next = heap.next) :
    next.Apart (Function.update live key (some slice)) kept := by
  have hlive : ∀ other found, Function.update live key (some slice) other = some found →
      ∃ before, live other = some before ∧ before.array = found.array := by
    intro other found hfound
    by_cases hother : other = key
    · subst hother
      rw [Function.update_self, Option.some.injEq] at hfound
      exact ⟨old, hold, hfound ▸ hslice.symm⟩
    · rw [Function.update_of_ne hother] at hfound
      exact ⟨found, hfound, rfl⟩
  constructor
  · intro other found hfound
    obtain ⟨before, hbefore, harray⟩ := hlive other found hfound
    rw [hnext, ← harray]
    exact hapart.live_lt other before hbefore
  · intro found hfound
    rw [hnext]
    exact hapart.kept_lt found hfound
  · intro first second found other hfirst hsecond harray
    obtain ⟨before, hbefore, hfound⟩ := hlive first found hfirst
    obtain ⟨before', hbefore', hother⟩ := hlive second other hsecond
    apply hapart.injective first second before before' hbefore hbefore'
    rw [hfound, harray, hother]
  · intro other found reader hfound hkept
    obtain ⟨before, hbefore, harray⟩ := hlive other found hfound
    rw [← harray]
    exact hapart.disjoint other before reader hbefore hkept

/-- Appending to the slice of a key. -/
theorem append (hapart : heap.Apart live kept) (growth : Growth) {key : Key} {slice : Slice}
    (hslice : live key = some slice) (value : T) :
    (heap.append growth slice value).2.Apart
      (Function.update live key (some (heap.append growth slice value).1)) kept := by
  rcases heap.append_array growth slice value with ⟨harray, hnext⟩ | ⟨harray, hnext⟩
  · exact hapart.extend hslice harray hnext
  · exact hapart.replace harray hnext

/-- A key gets a slice of its own. -/
theorem make (hapart : heap.Apart live kept) (key : Key) (capacity : Nat) :
    (heap.make capacity).2.Apart
      (Function.update live key (some (heap.make capacity).1)) kept :=
  hapart.replace rfl rfl

/-- A slice that its key loses to a new one can be kept by its readers. -/
theorem hand_over (hapart : heap.Apart live kept) {key : Key} {slice : Slice}
    (hslice : live key = some slice) (capacity : Nat) :
    (heap.make capacity).2.Apart (Function.update live key (some (heap.make capacity).1))
      (fun other => kept other ∨ other = slice) := by
  have hmade := hapart.make key capacity
  constructor
  · exact hmade.live_lt
  · rintro other (hkept | rfl)
    · exact hmade.kept_lt other hkept
    · exact Nat.lt_succ_of_lt (hapart.live_lt key other hslice)
  · exact hmade.injective
  · rintro other found reader hfound (hkept | rfl)
    · exact hmade.disjoint other found reader hfound hkept
    · by_cases hother : other = key
      · subst hother
        rw [Function.update_self, Option.some.injEq] at hfound
        rw [← hfound]
        exact Nat.ne_of_gt (hapart.live_lt other reader hslice)
      · rw [Function.update_of_ne hother] at hfound
        exact fun harray => hother (hapart.injective other key found reader hfound hslice harray)

omit [DecidableEq Key] in
/-- What an append to the slice of a key leaves as it was: the slices of the other keys. -/
theorem read_append_live (hapart : heap.Apart live kept) (growth : Growth) {key other : Key}
    {slice found : Slice} (hslice : live key = some slice) (hfound : live other = some found)
    (hne : other ≠ key) (value : T) :
    (heap.append growth slice value).2.read found = heap.read found := by
  apply read_append_other growth value (hapart.live_lt other found hfound)
  exact fun harray => hne (hapart.injective other key found slice hfound hslice harray)

omit [DecidableEq Key] in
/-- And the slices that are only read. -/
theorem read_append_kept (hapart : heap.Apart live kept) (growth : Growth) {key : Key}
    {slice found : Slice} (hslice : live key = some slice) (hfound : kept found) (value : T) :
    (heap.append growth slice value).2.read found = heap.read found := by
  apply read_append_other growth value (hapart.kept_lt found hfound)
  exact (hapart.disjoint key slice found hslice hfound).symm

omit [DecidableEq Key] in
/-- Keys may lose their slices. -/
theorem restrict (hapart : heap.Apart live kept) {fewer : Key → Option Slice}
    (hfewer : ∀ key slice, fewer key = some slice → live key = some slice) :
    heap.Apart fewer kept where
  live_lt := fun key slice hslice => hapart.live_lt key slice (hfewer key slice hslice)
  kept_lt := hapart.kept_lt
  injective := fun first second slice other hslice hother =>
    hapart.injective first second slice other (hfewer first slice hslice)
      (hfewer second other hother)
  disjoint := fun key slice other hslice =>
    hapart.disjoint key slice other (hfewer key slice hslice)

end Apart

/-- The slices under the keys have arrays of their own, and a slice that is `held` by a reader
ends before the place where the next value is appended in its array. -/
structure Covers {Key : Type*} (heap : SliceHeap T) (live : Key → Option Slice)
    (held : Slice → Prop) : Prop where
  apart : heap.Apart live fun slice => slice = .nil
  held_lt : ∀ slice, held slice → slice.array < heap.next
  covered : ∀ key slice reader, live key = some slice → held reader →
    slice.array = reader.array → reader.length ≤ slice.length

namespace Covers

variable {Key : Type*} [DecidableEq Key] {heap : SliceHeap T} {live : Key → Option Slice}
  {held : Slice → Prop}

omit [DecidableEq Key] in
theorem empty : Covers (SliceHeap.empty : SliceHeap T) (fun _ : Key => none)
    (fun slice => slice = .nil) where
  apart := Apart.empty
  held_lt := by
    rintro slice rfl
    exact Nat.zero_lt_one
  covered := nofun

omit [DecidableEq Key] in
theorem restrict (hcovers : heap.Covers live held) {fewer : Key → Option Slice}
    (hfewer : ∀ key slice, fewer key = some slice → live key = some slice) :
    heap.Covers fewer held where
  apart := hcovers.apart.restrict hfewer
  held_lt := hcovers.held_lt
  covered := fun key slice reader hslice =>
    hcovers.covered key slice reader (hfewer key slice hslice)

omit [DecidableEq Key] in
theorem mono (hcovers : heap.Covers live held) {fewer : Slice → Prop}
    (hfewer : ∀ slice, fewer slice → held slice) : heap.Covers live fewer where
  apart := hcovers.apart
  held_lt := fun reader hreader => hcovers.held_lt reader (hfewer reader hreader)
  covered := fun key slice reader hslice hreader =>
    hcovers.covered key slice reader hslice (hfewer reader hreader)

omit [DecidableEq Key] in
/-- A reader may hold the slice of a key as it is now. -/
theorem hold (hcovers : heap.Covers live held) {key : Key} {slice : Slice}
    (hslice : live key = some slice) :
    heap.Covers live fun reader => held reader ∨ reader = slice where
  apart := hcovers.apart
  held_lt := by
    rintro reader (hheld | rfl)
    · exact hcovers.held_lt reader hheld
    · exact hcovers.apart.live_lt key reader hslice
  covered := by
    rintro other found reader hfound (hheld | rfl) harray
    · exact hcovers.covered other found reader hfound hheld harray
    · obtain rfl := hcovers.apart.injective other key found reader hfound hslice harray
      obtain rfl := Option.some.inj (hfound.symm.trans hslice)
      exact Nat.le_refl _

/-- A key gets a slice with an array that is new. -/
theorem replace (hcovers : heap.Covers live held) {next : SliceHeap T} {key : Key}
    {slice : Slice} (hslice : slice.array = heap.next) (hnext : next.next = heap.next + 1) :
    next.Covers (Function.update live key (some slice)) held where
  apart := hcovers.apart.replace hslice hnext
  held_lt := by
    intro reader hheld
    rw [hnext]
    exact Nat.lt_succ_of_lt (hcovers.held_lt reader hheld)
  covered := by
    intro other found reader hfound hheld harray
    by_cases hother : other = key
    · subst hother
      rw [Function.update_self, Option.some.injEq] at hfound
      have hlt := hcovers.held_lt reader hheld
      rw [← harray, ← hfound, hslice] at hlt
      exact absurd hlt (Nat.lt_irrefl _)
    · rw [Function.update_of_ne hother] at hfound
      exact hcovers.covered other found reader hfound hheld harray

theorem make (hcovers : heap.Covers live held) (key : Key) (capacity : Nat) :
    (heap.make capacity).2.Covers (Function.update live key (some (heap.make capacity).1)) held :=
  hcovers.replace rfl rfl

theorem append (hcovers : heap.Covers live held) (growth : Growth) {key : Key} {slice : Slice}
    (hslice : live key = some slice) (value : T) :
    (heap.append growth slice value).2.Covers
      (Function.update live key (some (heap.append growth slice value).1)) held := by
  rcases heap.append_array growth slice value with ⟨harray, hnext⟩ | ⟨harray, hnext⟩
  · refine ⟨hcovers.apart.append growth hslice value, ?_, ?_⟩
    · intro reader hheld
      rw [hnext]
      exact hcovers.held_lt reader hheld
    · intro other found reader hfound hheld hreader
      by_cases hother : other = key
      · subst hother
        rw [Function.update_self, Option.some.injEq] at hfound
        subst hfound
        rw [harray] at hreader
        have hlength := hcovers.covered other slice reader hslice hheld hreader
        exact Nat.le_trans hlength (heap.length_le_append growth slice value)
      · rw [Function.update_of_ne hother] at hfound
        exact hcovers.covered other found reader hfound hheld hreader
  · exact hcovers.replace harray hnext

omit [DecidableEq Key] in
/-- An append is written behind the end of every slice that is held. -/
theorem read_append (hcovers : heap.Covers live held) (growth : Growth) {key : Key}
    {slice reader : Slice} (hslice : live key = some slice) (hheld : held reader) (value : T) :
    (heap.append growth slice value).2.read reader = heap.read reader := by
  by_cases harray : slice.array = reader.array
  · have hlength := hcovers.covered key slice reader hslice hheld harray
    apply read_congr
    intro index hindex
    unfold SliceHeap.append
    split
    · simp only [← harray, Function.update_self]
      rw [Function.update_of_ne (by omega)]
    · have hlt := hcovers.held_lt reader hheld
      simp only [Function.update_of_ne (Nat.ne_of_lt hlt)]
  · exact read_append_other growth value (hcovers.held_lt reader hheld) (Ne.symm harray)

end Covers

end SliceHeap

end Kapprofiler.Foundation
