import Kapprofiler.Foundation.Slices
import Kapprofiler.InMemoryMapDB

/-! # The in-memory database with its buffers

`pkg/inmemorymapdb` once more, with each bucket as the slice that it is in the code:
`Put` appends in place while the capacity lasts, and `GetNClean` hands the bucket's own
slice to the caller. The database of lists is what remains once no two of these slices
share an array.
-/

namespace Kapprofiler

open Foundation

/-- The map from buckets to slices, `none` once closed, next to the arrays of the
values' type. -/
structure SliceMapDB (T : Type) where
  m : Option (String → Option Slice)
  defaultInitalCap : Nat
  heap : SliceHeap T

namespace SliceMapDB

variable {T : Type}

/-- `NewInMemoryMapDB`: the capacity it is given is not stored. -/
def new (_defaultInitalCap : Nat) : SliceMapDB T := ⟨some fun _ => none, 0, .empty⟩

/-- The slice of a bucket, nil where there is none. -/
def slice (db : SliceMapDB T) (key : String) : Slice :=
  (db.m.bind fun m => m key).getD .nil

def get (db : SliceMapDB T) (key : String) : List T := db.heap.read (db.slice key)

/-- Writing to a nil map panics. -/
def put (db : SliceMapDB T) (growth : Growth) (key : String) (value : T) :
    Option (SliceMapDB T) :=
  db.m.map fun m =>
    let found := match m key with
      | some slice => (slice, db.heap)
      | none => db.heap.make db.defaultInitalCap
    let appended := found.2.append growth found.1 value
    { db with m := some (Function.update m key (some appended.1)), heap := appended.2 }

/-- Return the slice of a bucket and give the bucket a new one of the same capacity. -/
def getNClean (db : SliceMapDB T) (key : String) : Slice × SliceMapDB T :=
  match db.m with
  | none => (.nil, db)
  | some m =>
      match m key with
      | none => (.nil, db)
      | some slice =>
          let made := db.heap.make slice.length
          (slice, { db with m := some (Function.update m key (some made.1)), heap := made.2 })

/-- Deleting from a nil map does nothing. -/
def delete (db : SliceMapDB T) (key : String) : SliceMapDB T :=
  { db with m := db.m.map fun m => Function.update m key none }

def exist (db : SliceMapDB T) (key : String) : Bool := (db.m.bind fun m => m key).isSome

def clear (db : SliceMapDB T) : SliceMapDB T := { db with m := some fun _ => none }

def close (db : SliceMapDB T) : SliceMapDB T := { db with m := none }

def isClosed (db : SliceMapDB T) : Bool := db.m.isNone

/-- No bucket shares an array with another one, or with a slice in `kept`. -/
def Apart (db : SliceMapDB T) (kept : Slice → Prop) : Prop :=
  ∀ m, db.m = some m → db.heap.Apart m kept

/-- The database of lists with the contents of this one's slices. -/
def Holds (db : SliceMapDB T) (lists : InMemoryMapDB T) : Prop :=
  match db.m, lists.m with
  | none, none => True
  | some m, some values => ∀ key, (m key).map db.heap.read = values.lookup key
  | _, _ => False

theorem new_apart (capacity : Nat) :
    (new capacity : SliceMapDB T).Apart fun slice => slice = .nil := by
  intro m hm
  obtain rfl := Option.some.inj hm
  exact SliceHeap.Apart.empty

theorem new_holds (capacity : Nat) : (new capacity : SliceMapDB T).Holds .new := by
  intro key
  rfl

theorem Holds.get {db : SliceMapDB T} {lists : InMemoryMapDB T} (hholds : db.Holds lists)
    (key : String) : db.get key = lists.get key := by
  unfold SliceMapDB.get slice InMemoryMapDB.get
  unfold Holds at hholds
  split at hholds
  next hdb hlists => simp [hdb, hlists]
  next m values hdb hlists =>
    simp only [hdb, hlists, Option.bind_some, ← hholds key]
    cases m key with
    | none => rfl
    | some slice => rfl
  next => exact hholds.elim

section Steps

variable {db : SliceMapDB T} {lists : InMemoryMapDB T} {kept : Slice → Prop}
  {m : String → Option Slice} {values : Finmap fun _ : String => List T} {heap : SliceHeap T}

/-- The contents after an append to the slice of one bucket. -/
theorem contents_append (hholds : ∀ key, (m key).map heap.read = values.lookup key)
    (hapart : heap.Apart m kept) (growth : Growth) {key : String} {slice : Slice}
    (hslice : m key = some slice) (value : T) (other : String) :
    (Function.update m key (some (heap.append growth slice value).1) other).map
        (heap.append growth slice value).2.read =
      (values.insert key ((values.lookup key).getD [] ++ [value])).lookup other := by
  by_cases hother : other = key
  · subst hother
    have hread := hholds other
    rw [hslice, Option.map_some] at hread
    rw [Function.update_self, Option.map_some, SliceHeap.read_append, Finmap.lookup_insert,
      ← hread, Option.getD_some]
  · rw [Function.update_of_ne hother, Finmap.lookup_insert_of_ne _ hother, ← hholds other]
    cases hfound : m other with
    | none => rfl
    | some found =>
        rw [Option.map_some, Option.map_some,
          hapart.read_append_live growth hslice hfound hother]

/-- The contents after one bucket got a slice of its own. -/
theorem contents_make (hholds : ∀ key, (m key).map heap.read = values.lookup key)
    (key : String) (capacity : Nat) (other : String) :
    (Function.update m key (some (heap.make capacity).1) other).map
        (heap.make capacity).2.read = (values.insert key []).lookup other := by
  by_cases hother : other = key
  · subst hother
    rw [Function.update_self, Option.map_some, SliceHeap.read_make, Finmap.lookup_insert]
  · rw [Function.update_of_ne hother, Finmap.lookup_insert_of_ne _ hother]
    exact hholds other

/-- `Put` appends one value to the list of its bucket and changes no slice of a reader. -/
theorem put_spec (hholds : db.Holds lists) (hapart : db.Apart kept) (growth : Growth)
    {key : String} {value : T} {next : SliceMapDB T}
    (hput : db.put growth key value = some next) :
    (∃ nextLists, lists.put key value = some nextLists ∧ next.Holds nextLists) ∧
      next.Apart kept ∧
      ∀ slice, kept slice → next.heap.read slice = db.heap.read slice := by
  obtain ⟨m, hm, rfl⟩ := Option.map_eq_some_iff.mp hput
  have hapart := hapart m hm
  unfold Holds at hholds
  cases hvalues : lists.m with
  | none => simp [hm, hvalues] at hholds
  | some values =>
      simp only [hm, hvalues] at hholds
      have hlists : lists.put key value =
          some ⟨some (values.insert key ((values.lookup key).getD [] ++ [value]))⟩ := by
        simp [InMemoryMapDB.put, hvalues]
      cases hkey : m key with
      | some slice =>
          simp only
          refine ⟨⟨_, hlists, ?_⟩, ?_, ?_⟩
          · exact contents_append hholds hapart growth hkey value
          · intro after hafter
            obtain rfl := Option.some.inj hafter
            exact hapart.append growth hkey value
          · intro reader hreader
            exact hapart.read_append_kept growth hkey hreader value
      | none =>
          -- the bucket is made first, then it is appended to
          simp only
          have hmade := hapart.make key db.defaultInitalCap
          have hself : Function.update m key (some (db.heap.make db.defaultInitalCap).1) key =
              some (db.heap.make db.defaultInitalCap).1 := Function.update_self ..
          have hmissing : values.lookup key = none := by
            rw [← hholds key, hkey, Option.map_none]
          refine ⟨⟨_, hlists, ?_⟩, ?_, ?_⟩
          · intro other
            have hcontents := contents_append (contents_make hholds key db.defaultInitalCap)
              hmade growth hself value other
            rw [Function.update_idem] at hcontents
            rw [hcontents, Finmap.lookup_insert, hmissing]
            by_cases hother : other = key
            · subst hother
              simp
            · simp only [Finmap.lookup_insert_of_ne _ hother]
          · intro after hafter
            obtain rfl := Option.some.inj hafter
            have happended := hmade.append growth hself value
            rw [Function.update_idem] at happended
            exact happended
          · intro reader hreader
            exact hmade.read_append_kept growth hself hreader value

/-- `GetNClean` returns the list of the bucket and leaves it empty; its caller may keep
the slice. -/
theorem getNClean_spec (hholds : db.Holds lists) (hapart : db.Apart kept)
    (hnil : kept .nil) (key : String) :
    db.heap.read (db.getNClean key).1 = (lists.getNClean key).1 ∧
      (db.getNClean key).2.Holds (lists.getNClean key).2 ∧
      (db.getNClean key).2.Apart (fun slice => kept slice ∨ slice = (db.getNClean key).1) ∧
      ∀ slice, (db.getNClean key).2.heap.read slice = db.heap.read slice := by
  have hsame : db.Apart fun slice => kept slice ∨ slice = .nil := by
    intro m hm
    refine (hapart m hm).mono ?_
    rintro slice (hkept | rfl)
    · exact hkept
    · exact hnil
  unfold getNClean InMemoryMapDB.getNClean
  have hcontents := hholds
  unfold Holds at hcontents
  cases hm : db.m with
  | none =>
      cases hvalues : lists.m with
      | none => exact ⟨rfl, hholds, hsame, fun slice => rfl⟩
      | some values => simp [hm, hvalues] at hcontents
  | some m =>
      cases hvalues : lists.m with
      | none => simp [hm, hvalues] at hcontents
      | some values =>
          simp only [hm, hvalues] at hcontents
          simp only [← hcontents key]
          cases hkey : m key with
          | none => exact ⟨rfl, hholds, hsame, fun slice => rfl⟩
          | some slice =>
              refine ⟨rfl, ?_, ?_, fun slice => rfl⟩
              · exact contents_make hcontents key slice.length
              · intro after hafter
                obtain rfl := Option.some.inj hafter
                exact (hapart m hm).hand_over hkey slice.length

end Steps

end SliceMapDB

end Kapprofiler
