import Mathlib.Logic.Function.Basic

/-! # Object stores with optimistic concurrency

Each stored object carries the revision of the write that produced it. A write
that changes an object takes a fresh revision, a write that changes nothing
keeps the old one, and an update must present the version it was computed from.
A reader's copy is therefore either the stored object or recognisably stale.
-/

namespace Kapprofiler.Foundation

universe uKey uValue

structure Versioned (Value : Type uValue) where
  value : Value
  version : Nat
  deriving DecidableEq

/-- No stored version is newer than the store's revision. -/
structure VersionedStore (Key : Type uKey) (Value : Type uValue) where
  objects : Key → Option (Versioned Value)
  revision : Nat
  version_le : ∀ key object, objects key = some object → object.version ≤ revision

namespace VersionedStore

variable {Key : Type uKey} {Value : Type uValue}

def empty : VersionedStore Key Value where
  objects _ := none
  revision := 0
  version_le _ _ h := by cases h

def get (store : VersionedStore Key Value) (key : Key) : Option (Versioned Value) :=
  store.objects key

variable [DecidableEq Key]

/-- Store `value` under a fresh revision. -/
def put (store : VersionedStore Key Value) (key : Key) (value : Value) :
    VersionedStore Key Value where
  objects := Function.update store.objects key (some ⟨value, store.revision + 1⟩)
  revision := store.revision + 1
  version_le other object hobject := by
    by_cases hkey : other = key
    · subst other
      rw [Function.update_self] at hobject
      exact (Option.some.inj hobject) ▸ Nat.le_refl _
    · rw [Function.update_of_ne hkey] at hobject
      exact Nat.le_succ_of_le (store.version_le other object hobject)

/-- Create fails if the object exists. -/
def create (store : VersionedStore Key Value) (key : Key) (value : Value) :
    Option (VersionedStore Key Value) :=
  match store.objects key with
  | none => some (store.put key value)
  | some _ => none

def delete (store : VersionedStore Key Value) (key : Key) : VersionedStore Key Value where
  objects := Function.update store.objects key none
  revision := store.revision
  version_le other object hobject := by
    by_cases hkey : other = key
    · subst other
      simp at hobject
    · rw [Function.update_of_ne hkey] at hobject
      exact store.version_le other object hobject

variable [DecidableEq Value]

/-- Replace the value of an existing object; a write of the same value is not
effective and leaves its version alone. -/
def write (store : VersionedStore Key Value) (key : Key) (object : Versioned Value)
    (value : Value) : VersionedStore Key Value :=
  if value = object.value then store else store.put key value

/-- Update fails if the object is missing or its version is not the presented one. -/
def update (store : VersionedStore Key Value) (key : Key) (value : Value) (version : Nat) :
    Option (VersionedStore Key Value) :=
  match store.objects key with
  | none => none
  | some object => if object.version = version then some (store.write key object value) else none

/-- A patch presents no version: it applies to whatever object is stored. -/
def patch (store : VersionedStore Key Value) (key : Key) (change : Value → Value) :
    Option (VersionedStore Key Value) :=
  match store.objects key with
  | none => none
  | some object => some (store.write key object (change object.value))

/-! ## Reading after a write -/

section Reading

omit [DecidableEq Value]

theorem put_get (store : VersionedStore Key Value) (key : Key) (value : Value) :
    (store.put key value).get key = some ⟨value, store.revision + 1⟩ :=
  Function.update_self ..

theorem put_get_of_ne (store : VersionedStore Key Value) {key other : Key} (value : Value)
    (hne : other ≠ key) : (store.put key value).get other = store.get other :=
  Function.update_of_ne hne ..

theorem delete_get (store : VersionedStore Key Value) (key : Key) :
    (store.delete key).get key = none :=
  Function.update_self ..

theorem delete_get_of_ne (store : VersionedStore Key Value) {key other : Key}
    (hne : other ≠ key) : (store.delete key).get other = store.get other :=
  Function.update_of_ne hne ..

theorem create_eq_some {store next : VersionedStore Key Value} {key : Key} {value : Value} :
    store.create key value = some next ↔
      store.get key = none ∧ next = store.put key value := by
  unfold create get
  cases store.objects key <;> simp [eq_comm]

theorem create_of_absent {store : VersionedStore Key Value} {key : Key} (value : Value)
    (habsent : store.get key = none) : store.create key value = some (store.put key value) :=
  create_eq_some.mpr ⟨habsent, rfl⟩

theorem create_eq_none {store : VersionedStore Key Value} {key : Key} {value : Value} :
    store.create key value = none ↔ ∃ object, store.get key = some object := by
  unfold create get
  cases store.objects key <;> simp

end Reading

theorem write_get (store : VersionedStore Key Value) {key : Key} {object : Versioned Value}
    (value : Value) (hobject : store.get key = some object) :
    ∃ version, (store.write key object value).get key = some ⟨value, version⟩ := by
  unfold write
  split
  next hsame => exact ⟨object.version, by rw [hobject, hsame]⟩
  next => exact ⟨_, store.put_get key value⟩

theorem write_get_of_ne (store : VersionedStore Key Value) {key other : Key}
    (object : Versioned Value) (value : Value) (hne : other ≠ key) :
    (store.write key object value).get other = store.get other := by
  unfold write
  split
  · rfl
  · exact store.put_get_of_ne value hne

/-- A write of the stored value is not effective. -/
theorem write_value (store : VersionedStore Key Value) (key : Key) (object : Versioned Value) :
    store.write key object object.value = store :=
  if_pos rfl

/-- An effective write takes a fresh revision. -/
theorem write_eq_or_put (store : VersionedStore Key Value) (key : Key)
    (object : Versioned Value) (value : Value) :
    store.write key object value = store ∨ store.write key object value = store.put key value := by
  unfold write
  split
  · exact Or.inl rfl
  · exact Or.inr rfl

theorem update_eq_some {store next : VersionedStore Key Value} {key : Key} {value : Value}
    {version : Nat} :
    store.update key value version = some next ↔
      ∃ object, store.get key = some object ∧ object.version = version ∧
        next = store.write key object value := by
  unfold update get
  cases store.objects key with
  | none => simp
  | some object =>
      by_cases hversion : object.version = version
      · simp [hversion, eq_comm]
      · simp [hversion]

theorem patch_eq_some {store next : VersionedStore Key Value} {key : Key}
    {change : Value → Value} :
    store.patch key change = some next ↔
      ∃ object, store.get key = some object ∧
        next = store.write key object (change object.value) := by
  unfold patch get
  cases store.objects key <;> simp [eq_comm]

/-- An update that presents the stored version is accepted. -/
theorem update_of_get {store : VersionedStore Key Value} {key : Key} {object : Versioned Value}
    (value : Value) (hobject : store.get key = some object) :
    store.update key value object.version = some (store.write key object value) :=
  update_eq_some.mpr ⟨object, hobject, rfl, rfl⟩

theorem patch_of_get {store : VersionedStore Key Value} {key : Key} {object : Versioned Value}
    (change : Value → Value) (hobject : store.get key = some object) :
    store.patch key change = some (store.write key object (change object.value)) :=
  patch_eq_some.mpr ⟨object, hobject, rfl⟩

/-! ## Copies held by readers -/

section Copies

omit [DecidableEq Key] [DecidableEq Value]

/-- A reader's copy is faithful when the store, as long as it shows the copy's
version, shows the copy itself. -/
def Faithful (store : VersionedStore Key Value) (key : Key) (copy : Versioned Value) : Prop :=
  copy.version ≤ store.revision ∧
    ∀ object, store.get key = some object → object.version = copy.version → object = copy

/-- A copy is stale when the stored object is strictly newer. -/
def Stale (store : VersionedStore Key Value) (key : Key) (copy : Versioned Value) : Prop :=
  ∃ object, store.get key = some object ∧ copy.version < object.version

theorem faithful_of_get {store : VersionedStore Key Value} {key : Key}
    {copy : Versioned Value} (hcopy : store.get key = some copy) :
    store.Faithful key copy :=
  ⟨store.version_le key copy hcopy, fun _ hobject _ => Option.some.inj (hobject.symm.trans hcopy)⟩

end Copies

namespace Faithful

variable {store : VersionedStore Key Value} {key : Key} {copy : Versioned Value}

omit [DecidableEq Value] in
/-- A fresh revision is newer than every copy, so no old copy shows it. -/
theorem put (hcopy : store.Faithful key copy) (other : Key) (value : Value) :
    (store.put other value).Faithful key copy := by
  refine ⟨Nat.le_succ_of_le hcopy.1, ?_⟩
  intro object hobject hversion
  by_cases hkey : key = other
  · subst other
    rw [put_get] at hobject
    have hfresh : object.version = store.revision + 1 := (Option.some.inj hobject) ▸ rfl
    have hold := hcopy.1
    omega
  · rw [put_get_of_ne _ _ hkey] at hobject
    exact hcopy.2 object hobject hversion

omit [DecidableEq Value] in
theorem stale_put (hcopy : store.Faithful key copy) (value : Value) :
    (store.put key value).Stale key copy :=
  ⟨_, store.put_get key value, Nat.lt_succ_of_le hcopy.1⟩

omit [DecidableEq Value] in
theorem delete (hcopy : store.Faithful key copy) (other : Key) :
    (store.delete other).Faithful key copy := by
  refine ⟨hcopy.1, ?_⟩
  intro object hobject hversion
  by_cases hkey : key = other
  · subst other
    rw [delete_get] at hobject
    cases hobject
  · rw [delete_get_of_ne _ hkey] at hobject
    exact hcopy.2 object hobject hversion

theorem write (hcopy : store.Faithful key copy) (other : Key) (object : Versioned Value)
    (value : Value) : (store.write other object value).Faithful key copy := by
  unfold VersionedStore.write
  split
  · exact hcopy
  · exact hcopy.put other value

omit [DecidableEq Value] in
theorem create {next : VersionedStore Key Value} {other : Key} {value : Value}
    (hcopy : store.Faithful key copy) (hcreate : store.create other value = some next) :
    next.Faithful key copy := by
  obtain ⟨_, rfl⟩ := create_eq_some.mp hcreate
  exact hcopy.put other value

theorem patch {next : VersionedStore Key Value} {other : Key} {change : Value → Value}
    (hcopy : store.Faithful key copy) (hpatch : store.patch other change = some next) :
    next.Faithful key copy := by
  obtain ⟨object, _, rfl⟩ := patch_eq_some.mp hpatch
  exact hcopy.write other object _

theorem update {next : VersionedStore Key Value} {other : Key} {value : Value} {version : Nat}
    (hcopy : store.Faithful key copy) (hupdate : store.update other value version = some next) :
    next.Faithful key copy := by
  obtain ⟨object, _, _, rfl⟩ := update_eq_some.mp hupdate
  exact hcopy.write other object value

/-- An accepted update was computed from the object it replaces. -/
theorem get_of_update {next : VersionedStore Key Value} {value : Value}
    (hcopy : store.Faithful key copy)
    (hupdate : store.update key value copy.version = some next) :
    store.get key = some copy ∧ next = store.write key copy value := by
  obtain ⟨object, hobject, hversion, hnext⟩ := update_eq_some.mp hupdate
  have heq := hcopy.2 object hobject hversion
  subst object
  exact ⟨hobject, hnext⟩

end Faithful

/-- The update of a stale copy is rejected. -/
theorem Stale.update_eq_none {store : VersionedStore Key Value} {key : Key}
    {copy : Versioned Value} (hstale : store.Stale key copy) (value : Value) :
    store.update key value copy.version = none := by
  obtain ⟨object, hobject, hnewer⟩ := hstale
  by_contra hsome
  obtain ⟨next, hnext⟩ := Option.ne_none_iff_exists'.mp hsome
  obtain ⟨stored, hstored, hversion, _⟩ := update_eq_some.mp hnext
  have heq : stored = object := Option.some.inj (hstored.symm.trans hobject)
  subst heq
  omega

end VersionedStore

/-! ## Requests -/

/-- The answer to a request, which is lost if the request fails. -/
def request {α : Type} (fails : Bool) (answer : Option α) : Option α :=
  if fails then none else answer

theorem of_request {α : Type} {fails : Bool} {answer : Option α} {result : α}
    (hrequest : request fails answer = some result) : answer = some result := by
  cases fails with
  | true => cases hrequest
  | false => exact hrequest

theorem request_eq_none {α : Type} {fails : Bool} {answer : Option α} :
    request fails answer = none ↔ fails = true ∨ answer = none := by
  cases fails <;> simp [request]

theorem request_eq_some {α : Type} {fails : Bool} {answer : Option α} {result : α} :
    request fails answer = some result ↔ fails = false ∧ answer = some result := by
  cases fails <;> simp [request]

end Kapprofiler.Foundation
