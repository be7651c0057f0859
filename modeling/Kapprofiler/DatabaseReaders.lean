import Kapprofiler.Foundation.Machine
import Kapprofiler.SliceMapDB

/-! # What the readers of the database keep

`Get` and `GetNClean` return the bucket's own slice, and `Put` goes on appending to the array
of the one that `Get` returned. A reader that keeps such a slice, long after the lock was
released, still sees the values that the bucket had when it asked.
-/

namespace Kapprofiler

open Foundation

variable {T : Type}

/-- The calls of the database; `growth` is the runtime's choice at a `Put`. -/
inductive DatabaseCall (T : Type)
  | put (growth : Growth) (key : String) (value : T)
  | get (key : String)
  | delete (key : String)
  | exist (key : String)
  | clear
  | close
  | isClosed
  | getNClean (key : String)

/-- What a call returns: nothing, a slice or a list of values, or a bool. -/
inductive Response (Values : Type)
  | done
  | values (values : Values)
  | bool (bool : Bool)

/-- The database with the slices that it has returned, in order. -/
structure SliceSession (T : Type) where
  db : SliceMapDB T
  responses : List (Response Slice)

/-- The database of lists with what it has returned. -/
structure ListSession (T : Type) where
  db : InMemoryMapDB T
  responses : List (Response (List T))

namespace SliceSession

def new (capacity : Nat) : SliceSession T := ⟨.new capacity, []⟩

def respond (session : SliceSession T) (response : Response Slice) (db : SliceMapDB T) :
    SliceSession T :=
  ⟨db, session.responses ++ [response]⟩

def step (session : SliceSession T) : DatabaseCall T → Option (SliceSession T)
  | .put growth key value => (session.db.put growth key value).map (session.respond .done)
  | .get key => some (session.respond (.values (session.db.slice key)) session.db)
  | .delete key => some (session.respond .done (session.db.delete key))
  | .exist key => some (session.respond (.bool (session.db.exist key)) session.db)
  | .clear => some (session.respond .done session.db.clear)
  | .close => some (session.respond .done session.db.close)
  | .isClosed => some (session.respond (.bool session.db.isClosed) session.db)
  | .getNClean key =>
      let cleaned := session.db.getNClean key
      some (session.respond (.values cleaned.1) cleaned.2)

def machine (T : Type) : Machine (SliceSession T) (DatabaseCall T) where
  init session := ∃ capacity, session = new capacity
  step := step

/-- A slice that some caller was given. -/
def Held (session : SliceSession T) (slice : Slice) : Prop :=
  slice = .nil ∨ .values slice ∈ session.responses

end SliceSession

namespace ListSession

def new : ListSession T := ⟨.new, []⟩

def respond (session : ListSession T) (response : Response (List T)) (db : InMemoryMapDB T) :
    ListSession T :=
  ⟨db, session.responses ++ [response]⟩

def step (session : ListSession T) : DatabaseCall T → Option (ListSession T)
  | .put _ key value => (session.db.put key value).map (session.respond .done)
  | .get key => some (session.respond (.values (session.db.get key)) session.db)
  | .delete key => some (session.respond .done (session.db.delete key))
  | .exist key => some (session.respond (.bool (session.db.exist key)) session.db)
  | .clear => some (session.respond .done session.db.clear)
  | .close => some (session.respond .done session.db.close)
  | .isClosed => some (session.respond (.bool session.db.isClosed) session.db)
  | .getNClean key =>
      let cleaned := session.db.getNClean key
      some (session.respond (.values cleaned.1) cleaned.2)

def machine (T : Type) : Machine (ListSession T) (DatabaseCall T) where
  init session := session = new
  step := step

end ListSession

/-- The slice that was returned reads, on the heap, as the list. -/
inductive Response.Reads (heap : SliceHeap T) : Response Slice → Response (List T) → Prop
  | done : Reads heap .done .done
  | values (slice : Slice) : Reads heap (.values slice) (.values (heap.read slice))
  | bool (bool : Bool) : Reads heap (.bool bool) (.bool bool)

theorem Response.Reads.of_read {heap next : SliceHeap T} {response : Response Slice}
    {returned : Response (List T)} (hreads : response.Reads heap returned)
    (hsame : ∀ slice, response = .values slice → next.read slice = heap.read slice) :
    response.Reads next returned := by
  cases hreads with
  | done => exact .done
  | values slice =>
      rw [← hsame slice rfl]
      exact .values slice
  | bool bool => exact .bool bool

/-- The sessions hold the same values, and what was returned reads as it did. -/
structure Agree (session : SliceSession T) (lists : ListSession T) : Prop where
  holds : session.db.Holds lists.db
  covers : session.db.heap.Covers (session.db.m.getD fun _ => none) session.Held
  reads : List.Forall₂ (Response.Reads session.db.heap) session.responses lists.responses

namespace SliceMapDB

variable {db : SliceMapDB T} {lists : InMemoryMapDB T} {held : Slice → Prop}

/-! ## The contents after each call -/

theorem Holds.delete (hholds : db.Holds lists) (key : String) :
    (db.delete key).Holds (lists.delete key) := by
  unfold Holds SliceMapDB.delete InMemoryMapDB.delete at *
  split at hholds
  next hdb hlists => simp [hdb, hlists]
  next m values hdb hlists =>
    simp only [hdb, hlists, Option.map_some]
    intro other
    by_cases hother : other = key
    · subst hother
      rw [Function.update_self, Finmap.lookup_erase, Option.map_none]
    · rw [Function.update_of_ne hother, Finmap.lookup_erase_ne hother, hholds other]
  next => exact hholds.elim

theorem Holds.exist (hholds : db.Holds lists) (key : String) :
    db.exist key = lists.exist key := by
  unfold Holds at hholds
  unfold SliceMapDB.exist InMemoryMapDB.exist
  split at hholds
  next hdb hlists => simp [hdb, hlists]
  next m values hdb hlists =>
    rw [hdb, hlists, Option.bind_some, Option.bind_some, ← hholds key, Option.isSome_map]
  next => exact hholds.elim

theorem Holds.isClosed (hholds : db.Holds lists) : db.isClosed = lists.isClosed := by
  unfold Holds at hholds
  unfold SliceMapDB.isClosed InMemoryMapDB.isClosed
  split at hholds
  next hdb hlists => rw [hdb, hlists]; rfl
  next m values hdb hlists => rw [hdb, hlists]; rfl
  next => exact hholds.elim

theorem clear_holds (db : SliceMapDB T) (lists : InMemoryMapDB T) :
    db.clear.Holds lists.clear := fun _ => rfl

theorem close_holds (db : SliceMapDB T) (lists : InMemoryMapDB T) :
    db.close.Holds lists.close := trivial

theorem slice_eq_nil_or_live (db : SliceMapDB T) (key : String) :
    db.slice key = .nil ∨ (db.m.getD fun _ => none) key = some (db.slice key) := by
  unfold slice
  cases db.m with
  | none => exact Or.inl rfl
  | some m =>
      cases hkey : m key with
      | none => exact Or.inl (by simp [hkey])
      | some slice => exact Or.inr (by simp [hkey])

/-- `Put` keeps what the readers hold. -/
theorem put_covers (hcovers : db.heap.Covers (db.m.getD fun _ => none) held) {growth : Growth}
    {key : String} {value : T} {next : SliceMapDB T} (hput : db.put growth key value = some next) :
    next.heap.Covers (next.m.getD fun _ => none) held ∧
      ∀ reader, held reader → next.heap.read reader = db.heap.read reader := by
  obtain ⟨m, hm, rfl⟩ := Option.map_eq_some_iff.mp hput
  rw [hm, Option.getD_some] at hcovers
  cases hkey : m key with
  | some slice =>
      exact ⟨hcovers.append growth hkey value,
        fun reader hheld => hcovers.read_append growth hkey hheld value⟩
  | none =>
      -- the bucket is made first, then it is appended to
      have hmade := hcovers.make key db.defaultInitalCap
      have hself : Function.update m key (some (db.heap.make db.defaultInitalCap).1) key =
          some (db.heap.make db.defaultInitalCap).1 := Function.update_self ..
      have happended := hmade.append growth hself value
      rw [Function.update_idem] at happended
      exact ⟨happended, fun reader hheld => hmade.read_append growth hself hheld value⟩

/-- `GetNClean` hands the bucket's slice to the reader. -/
theorem getNClean_covers (hcovers : db.heap.Covers (db.m.getD fun _ => none) held)
    (hnil : held .nil) (key : String) :
    (db.getNClean key).2.heap.Covers ((db.getNClean key).2.m.getD fun _ => none)
        (fun reader => held reader ∨ reader = (db.getNClean key).1) ∧
      ∀ reader, (db.getNClean key).2.heap.read reader = db.heap.read reader := by
  have hsame : db.heap.Covers (db.m.getD fun _ => none)
      fun reader => held reader ∨ reader = .nil := hcovers.mono (by
    rintro reader (hheld | rfl)
    · exact hheld
    · exact hnil)
  unfold getNClean
  split
  next => exact ⟨hsame, fun reader => rfl⟩
  next m hm =>
    split
    next => exact ⟨hsame, fun reader => rfl⟩
    next slice hkey =>
      rw [hm, Option.getD_some] at hcovers
      exact ⟨(hcovers.hold hkey).make key slice.length, fun reader => rfl⟩

end SliceMapDB

/-! ## One call -/

section Calls

variable {session : SliceSession T} {lists : ListSession T} {db : SliceMapDB T}
  {listDb : InMemoryMapDB T} {response : Response Slice} {returned : Response (List T)}

theorem Agree.apart (hagree : Agree session lists) :
    session.db.Apart fun slice => slice = .nil := by
  intro m hm
  have hapart := hagree.covers.apart
  rwa [hm] at hapart

/-- A call keeps the agreement if it covers what it returns, and changes nothing that the
readers hold. -/
theorem Agree.respond (hagree : Agree session lists) (hholds : db.Holds listDb)
    (hcovers : db.heap.Covers (db.m.getD fun _ => none)
      fun slice => session.Held slice ∨ response = .values slice)
    (hsame : ∀ slice, session.Held slice → db.heap.read slice = session.db.heap.read slice)
    (hreads : response.Reads db.heap returned) :
    Agree (session.respond response db) (lists.respond returned listDb) where
  holds := hholds
  covers := by
    apply hcovers.mono
    rintro slice (rfl | hmem)
    · exact Or.inl (Or.inl rfl)
    · rcases List.mem_append.mp hmem with hold | hnew
      · exact Or.inl (Or.inr hold)
      · exact Or.inr (List.mem_singleton.mp hnew).symm
  reads := by
    have hold : ∀ response ∈ session.responses, ∀ slice, response = .values slice →
        db.heap.read slice = session.db.heap.read slice := by
      rintro response hmem slice rfl
      exact hsame slice (Or.inr hmem)
    have hbefore : List.Forall₂ (Response.Reads db.heap) session.responses lists.responses :=
      ((List.forall₂_and_left _ _).mpr ⟨hold, hagree.reads⟩).imp
        fun response returned hboth => hboth.2.of_read hboth.1
    exact List.rel_append hbefore (.cons hreads .nil)

/-- A call that returns no slice and leaves the heap as it is. -/
theorem Agree.respond_same (hagree : Agree session lists) (hholds : db.Holds listDb)
    (hheap : db.heap = session.db.heap)
    (hfewer : ∀ key slice, (db.m.getD fun _ => none) key = some slice →
      (session.db.m.getD fun _ => none) key = some slice)
    (hreads : response.Reads session.db.heap returned)
    (hnone : ∀ slice, response ≠ .values slice) :
    Agree (session.respond response db) (lists.respond returned listDb) := by
  apply hagree.respond hholds
  · rw [hheap]
    apply (hagree.covers.restrict hfewer).mono
    rintro slice (hheld | hnew)
    · exact hheld
    · exact absurd hnew (hnone slice)
  · intro slice _
    rw [hheap]
  · rwa [hheap]

theorem Agree.put (hagree : Agree session lists) (growth : Growth) (key : String) (value : T) :
    Option.Rel Agree (session.step (.put growth key value))
      (lists.step (.put growth key value)) := by
  change Option.Rel Agree ((session.db.put growth key value).map (session.respond .done))
    ((lists.db.put key value).map (lists.respond .done))
  cases hput : session.db.put growth key value with
  | none =>
      have hclosed : session.db.m = none := Option.map_eq_none_iff.mp hput
      have hholds := hagree.holds
      unfold SliceMapDB.Holds at hholds
      rw [hclosed] at hholds
      cases hlists : lists.db.m with
      | none =>
          rw [InMemoryMapDB.put, hlists]
          exact .none
      | some values => simp [hlists] at hholds
  | some next =>
      obtain ⟨⟨nextLists, hlists, hholds⟩, _⟩ :=
        SliceMapDB.put_spec hagree.holds hagree.apart growth hput
      obtain ⟨hcovers, hsame⟩ := SliceMapDB.put_covers hagree.covers hput
      rw [hlists]
      refine .some (hagree.respond hholds ?_ hsame .done)
      apply hcovers.mono
      rintro slice (hheld | hnew)
      · exact hheld
      · cases hnew

theorem Agree.getNClean (hagree : Agree session lists) (key : String) :
    Option.Rel Agree (session.step (.getNClean key)) (lists.step (.getNClean key)) := by
  obtain ⟨hread, hholds, _, hsame⟩ :=
    SliceMapDB.getNClean_spec hagree.holds hagree.apart rfl key
  obtain ⟨hcovers, _⟩ := SliceMapDB.getNClean_covers hagree.covers (Or.inl rfl) key
  refine .some (hagree.respond hholds ?_ (fun slice _ => hsame slice) ?_)
  · apply hcovers.mono
    rintro slice (hheld | hnew)
    · exact Or.inl hheld
    · exact Or.inr (Response.values.inj hnew).symm
  · rw [← hread, ← hsame]
    exact .values _

theorem Agree.get (hagree : Agree session lists) (key : String) :
    Option.Rel Agree (session.step (.get key)) (lists.step (.get key)) := by
  refine .some (hagree.respond hagree.holds ?_ (fun _ _ => rfl) ?_)
  · rcases session.db.slice_eq_nil_or_live key with hnil | hlive
    · apply hagree.covers.mono
      rintro slice (hheld | hnew)
      · exact hheld
      · exact Or.inl ((Response.values.inj hnew).symm.trans hnil)
    · apply (hagree.covers.hold hlive).mono
      rintro slice (hheld | hnew)
      · exact Or.inl hheld
      · exact Or.inr (Response.values.inj hnew).symm
  · rw [← hagree.holds.get key]
    exact .values _

/-- Every call keeps the agreement, and kills the process on both sides or on none. -/
theorem Agree.step (hagree : Agree session lists) (call : DatabaseCall T) :
    Option.Rel Agree (session.step call) (lists.step call) := by
  have hdone : ∀ slice, (.done : Response Slice) ≠ .values slice := by
    rintro slice ⟨⟩
  have hbool : ∀ (bool : Bool) slice, (.bool bool : Response Slice) ≠ .values slice := by
    rintro bool slice ⟨⟩
  cases call with
  | put growth key value => exact hagree.put growth key value
  | get key => exact hagree.get key
  | getNClean key => exact hagree.getNClean key
  | delete key =>
      refine .some (hagree.respond_same (hagree.holds.delete key) rfl ?_ .done hdone)
      intro other slice hslice
      cases hm : session.db.m with
      | none => simp [SliceMapDB.delete, hm] at hslice
      | some m =>
          simp only [SliceMapDB.delete, hm, Option.map_some, Option.getD_some] at hslice ⊢
          by_cases hother : other = key
          · rw [hother, Function.update_self] at hslice
            cases hslice
          · rwa [Function.update_of_ne hother] at hslice
  | exist key =>
      rw [SliceSession.step, ListSession.step, ← hagree.holds.exist key]
      exact .some (hagree.respond_same hagree.holds rfl (fun _ _ hslice => hslice) (.bool _)
        (hbool _))
  | isClosed =>
      rw [SliceSession.step, ListSession.step, ← hagree.holds.isClosed]
      exact .some (hagree.respond_same hagree.holds rfl (fun _ _ hslice => hslice) (.bool _)
        (hbool _))
  | clear =>
      refine .some (hagree.respond_same (SliceMapDB.clear_holds _ _) rfl ?_ .done hdone)
      rintro other slice ⟨⟩
  | close =>
      refine .some (hagree.respond_same (SliceMapDB.close_holds _ _) rfl ?_ .done hdone)
      rintro other slice ⟨⟩

end Calls

/-! ## Whole sessions -/

theorem agree_new (capacity : Nat) : Agree (SliceSession.new capacity : SliceSession T) .new where
  holds := SliceMapDB.new_holds capacity
  covers := by
    apply SliceHeap.Covers.empty.mono
    rintro slice (rfl | hmem)
    · rfl
    · cases hmem
  reads := .nil

/-- For every sequence of calls: the database panics exactly where the map of lists does, and
otherwise every slice that it has returned reads, at the end, as the values that the map of
lists returned at the time of the call. -/
theorem returned_slices_keep (capacity : Nat) (calls : List (DatabaseCall T)) :
    Option.Rel
      (fun last lists => List.Forall₂ (Response.Reads last.db.heap) last.responses lists.responses)
      ((SliceSession.machine T).run (.new capacity) calls)
      ((ListSession.machine T).run .new calls) := by
  have hagree : Option.Rel Agree ((SliceSession.machine T).run (.new capacity) calls)
      ((ListSession.machine T).run .new calls) :=
    (SliceSession.machine T).run_rel (fun _ _ call hagree => hagree.step call)
      (agree_new capacity) calls
  generalize (SliceSession.machine T).run (.new capacity) calls = last,
    (ListSession.machine T).run .new calls = lists at hagree ⊢
  cases hagree with
  | none => exact .none
  | some hlast => exact .some hlast.reads

end Kapprofiler
