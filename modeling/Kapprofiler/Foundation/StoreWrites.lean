import Kapprofiler.Foundation.VersionedStore

/-! # What writes keep of a store

Two ways to follow a store through its writes. A property of the stored values holds
everywhere as long as each write establishes it for the value it stores. A relation between
an earlier and a later value of one key holds over any number of writes, if every write of
that key replaces a value by a related one.
-/

namespace Kapprofiler.Foundation.VersionedStore

universe uKey uValue

variable {Key : Type uKey} {Value : Type uValue}

/-! ## Properties of the stored values -/

/-- Every stored value is good for the key it is stored under. -/
def Everywhere (store : VersionedStore Key Value) (good : Key → Value → Prop) : Prop :=
  ∀ key object, store.get key = some object → good key object.value

section Everywhere

variable {store next : VersionedStore Key Value} {good : Key → Value → Prop}

theorem Everywhere.mono {better : Key → Value → Prop} (hgood : store.Everywhere good)
    (hmono : ∀ key value, good key value → better key value) : store.Everywhere better :=
  fun key object hobject => hmono key object.value (hgood key object hobject)

variable [DecidableEq Key] {key : Key} {value : Value}

theorem Everywhere.put (hgood : store.Everywhere good) (hvalue : good key value) :
    (store.put key value).Everywhere good := by
  intro other object hobject
  by_cases hother : other = key
  · subst hother
    rw [put_get] at hobject
    rw [← Option.some.inj hobject]
    exact hvalue
  · rw [put_get_of_ne _ _ hother] at hobject
    exact hgood other object hobject

theorem Everywhere.create (hgood : store.Everywhere good) (hvalue : good key value)
    (hcreate : store.create key value = some next) : next.Everywhere good := by
  obtain ⟨_, rfl⟩ := create_eq_some.mp hcreate
  exact hgood.put hvalue

theorem Everywhere.delete (hgood : store.Everywhere good) (key : Key) :
    (store.delete key).Everywhere good := by
  intro other object hobject
  by_cases hother : other = key
  · subst hother
    rw [delete_get] at hobject
    cases hobject
  · rw [delete_get_of_ne _ hother] at hobject
    exact hgood other object hobject

variable [DecidableEq Value]

theorem Everywhere.write (hgood : store.Everywhere good) (object : Versioned Value)
    (hvalue : good key value) : (store.write key object value).Everywhere good := by
  rcases write_eq_or_put store key object value with hsame | hput
  · rwa [hsame]
  · rw [hput]
    exact hgood.put hvalue

theorem Everywhere.update {version : Nat} (hgood : store.Everywhere good)
    (hvalue : good key value) (hupdate : store.update key value version = some next) :
    next.Everywhere good := by
  obtain ⟨object, _, _, rfl⟩ := update_eq_some.mp hupdate
  exact hgood.write object hvalue

/-- A patch keeps what its change keeps. -/
theorem Everywhere.patch {change : Value → Value} (hgood : store.Everywhere good)
    (hchange : ∀ value, good key value → good key (change value))
    (hpatch : store.patch key change = some next) : next.Everywhere good := by
  obtain ⟨object, hobject, rfl⟩ := patch_eq_some.mp hpatch
  exact hgood.write object (hchange object.value (hgood key object hobject))

end Everywhere

/-! ## Values that grow -/

/-- What was stored under the key still is, under no older version, and has only grown. -/
def GrowsAt (grows : Value → Value → Prop) (key : Key) (store next : VersionedStore Key Value) :
    Prop :=
  ∀ object, store.get key = some object →
    ∃ grown, next.get key = some grown ∧ object.version ≤ grown.version ∧
      grows object.value grown.value

section GrowsAt

variable {grows : Value → Value → Prop} {key : Key} {store next : VersionedStore Key Value}

theorem growsAt_refl (hrefl : ∀ value, grows value value) (store : VersionedStore Key Value) :
    GrowsAt grows key store store :=
  fun object hobject => ⟨object, hobject, Nat.le_refl _, hrefl object.value⟩

theorem GrowsAt.trans {middle : VersionedStore Key Value}
    (htrans : ∀ first second third, grows first second → grows second third →
      grows first third)
    (hfirst : GrowsAt grows key store middle) (hsecond : GrowsAt grows key middle next) :
    GrowsAt grows key store next := by
  intro object hobject
  obtain ⟨between, hbetween, hversion, hgrows⟩ := hfirst object hobject
  obtain ⟨grown, hgrown, hversion', hgrows'⟩ := hsecond between hbetween
  exact ⟨grown, hgrown, Nat.le_trans hversion hversion', htrans _ _ _ hgrows hgrows'⟩

/-- Nothing happens at the key. -/
theorem growsAt_of_get_eq (hrefl : ∀ value, grows value value)
    (hsame : next.get key = store.get key) : GrowsAt grows key store next := by
  intro object hobject
  exact ⟨object, hsame.trans hobject, Nat.le_refl _, hrefl object.value⟩

variable [DecidableEq Key] {other : Key} {value : Value}

/-- A create finds nothing under its key. -/
theorem growsAt_create (hrefl : ∀ value, grows value value)
    (hcreate : store.create other value = some next) : GrowsAt grows key store next := by
  obtain ⟨habsent, rfl⟩ := create_eq_some.mp hcreate
  by_cases hkey : key = other
  · subst hkey
    intro object hobject
    rw [hobject] at habsent
    cases habsent
  · exact growsAt_of_get_eq hrefl (put_get_of_ne store value hkey)

variable [DecidableEq Value]

theorem growsAt_write (hrefl : ∀ value, grows value value) {object : Versioned Value}
    (hobject : store.get other = some object) (hgrows : grows object.value value) :
    GrowsAt grows key store (store.write other object value) := by
  by_cases hkey : key = other
  · subst hkey
    intro stored hstored
    obtain rfl := Option.some.inj (hobject.symm.trans hstored)
    unfold VersionedStore.write
    split
    next hsame => exact ⟨object, hobject, Nat.le_refl _, hsame ▸ hgrows⟩
    next =>
      have hversion : object.version ≤ store.revision := store.version_le key object hobject
      exact ⟨_, put_get store key value, Nat.le_succ_of_le hversion, hgrows⟩
  · exact growsAt_of_get_eq hrefl (write_get_of_ne store object value hkey)

theorem growsAt_patch (hrefl : ∀ value, grows value value) {change : Value → Value}
    (hchange : ∀ value, grows value (change value))
    (hpatch : store.patch other change = some next) : GrowsAt grows key store next := by
  obtain ⟨object, hobject, rfl⟩ := patch_eq_some.mp hpatch
  exact growsAt_write hrefl hobject (hchange object.value)

/-- An accepted update replaces the copy it was computed from, whatever happened in between. -/
theorem growsAt_update (hrefl : ∀ value, grows value value) {copy : Versioned Value}
    (hcopy : store.Faithful other copy) (hgrows : grows copy.value value)
    (hupdate : store.update other value copy.version = some next) :
    GrowsAt grows key store next := by
  obtain ⟨hstored, rfl⟩ := hcopy.get_of_update hupdate
  exact growsAt_write hrefl hstored hgrows

end GrowsAt

end Kapprofiler.Foundation.VersionedStore
