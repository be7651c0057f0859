import Mathlib.Data.Finmap

/-! # The bucketed in-memory database

`pkg/inmemorymapdb`: a map from bucket names to the values put under them. Every
operation runs under the database's lock, so it is one atomic step.
-/

namespace Kapprofiler

/-- `m` is `none` once the database is closed, as Go's nil map. -/
structure InMemoryMapDB (T : Type) where
  m : Option (Finmap fun _ : String => List T)

namespace InMemoryMapDB

variable {T : Type}

def new : InMemoryMapDB T := ⟨some ∅⟩

def get (db : InMemoryMapDB T) (key : String) : List T :=
  (db.m.bind (·.lookup key)).getD []

/-- Writing to a nil map panics. -/
def put (db : InMemoryMapDB T) (key : String) (value : T) : Option (InMemoryMapDB T) :=
  db.m.map fun m => ⟨some (m.insert key ((m.lookup key).getD [] ++ [value]))⟩

def delete (db : InMemoryMapDB T) (key : String) : InMemoryMapDB T :=
  ⟨db.m.map (·.erase key)⟩

def close (_ : InMemoryMapDB T) : InMemoryMapDB T := ⟨none⟩

def exist (db : InMemoryMapDB T) (key : String) : Bool := (db.m.bind (·.lookup key)).isSome

/-- Clearing opens a closed database again. -/
def clear (_ : InMemoryMapDB T) : InMemoryMapDB T := ⟨some ∅⟩

def isClosed (db : InMemoryMapDB T) : Bool := db.m.isNone

/-- Return the values of a bucket and leave the bucket empty. -/
def getNClean (db : InMemoryMapDB T) (key : String) : List T × InMemoryMapDB T :=
  match db.m with
  | none => ([], db)
  | some m =>
      match m.lookup key with
      | none => ([], db)
      | some values => (values, ⟨some (m.insert key [])⟩)

/-- An open database takes every value and stays open. -/
theorem exists_put {db : InMemoryMapDB T} (hopen : db.m.isSome) (key : String) (value : T) :
    ∃ next, db.put key value = some next ∧ next.m.isSome := by
  obtain ⟨m, hm⟩ := Option.isSome_iff_exists.mp hopen
  refine ⟨⟨some (m.insert key ((m.lookup key).getD [] ++ [value]))⟩, ?_, rfl⟩
  simp [put, hm]

theorem get_put {db next : InMemoryMapDB T} {key : String} {value : T}
    (hput : db.put key value = some next) : next.get key = db.get key ++ [value] := by
  obtain ⟨m, hm, rfl⟩ := Option.map_eq_some_iff.mp hput
  simp [get, hm, Finmap.lookup_insert]

theorem get_put_of_ne {db next : InMemoryMapDB T} {key other : String} {value : T}
    (hput : db.put key value = some next) (hne : other ≠ key) :
    next.get other = db.get other := by
  obtain ⟨m, hm, rfl⟩ := Option.map_eq_some_iff.mp hput
  simp [get, hm, Finmap.lookup_insert_of_ne _ hne]

theorem getNClean_fst (db : InMemoryMapDB T) (key : String) :
    (db.getNClean key).1 = db.get key := by
  unfold getNClean get
  cases db.m with
  | none => rfl
  | some m => cases hvalues : m.lookup key <;> simp [hvalues]

theorem get_getNClean (db : InMemoryMapDB T) (key : String) :
    (db.getNClean key).2.get key = [] := by
  unfold getNClean get
  cases hm : db.m with
  | none => simp [hm]
  | some m => cases hvalues : m.lookup key <;> simp [hm, hvalues, Finmap.lookup_insert]

theorem get_getNClean_of_ne (db : InMemoryMapDB T) {key other : String} (hne : other ≠ key) :
    (db.getNClean key).2.get other = db.get other := by
  unfold getNClean get
  cases hm : db.m with
  | none => simp [hm]
  | some m =>
      cases hvalues : m.lookup key with
      | none => simp [hm, hvalues]
      | some values => simp [hvalues, Finmap.lookup_insert_of_ne _ hne]

theorem get_delete (db : InMemoryMapDB T) (key : String) : (db.delete key).get key = [] := by
  unfold delete get
  cases db.m with
  | none => rfl
  | some m => simp

theorem get_delete_of_ne (db : InMemoryMapDB T) {key other : String} (hne : other ≠ key) :
    (db.delete key).get other = db.get other := by
  unfold delete get
  cases db.m with
  | none => rfl
  | some m => simp [Finmap.lookup_erase_ne hne]

end InMemoryMapDB

end Kapprofiler
