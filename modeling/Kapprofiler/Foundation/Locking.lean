import Mathlib.Data.Finset.Basic
import Mathlib.Order.WellFounded
import Kapprofiler.Foundation.Machine

/-! # Calls that take mutexes

Threads seen only through the mutexes that they lock and the shared fields that
they touch. Where every call takes its mutexes by increasing rank and gives back
what it took, no schedule gets stuck and every call ends. Where every call
touches a field only under one mutex, no two threads ever meet at the field.
-/

namespace Kapprofiler.Foundation

universe uMutex uField uCall

/-- What is left of a call. A branch may go either way. -/
inductive Locking (Mutex : Type uMutex) (Field : Type uField)
  | done
  | lock (mutex : Mutex) (rest : Locking Mutex Field)
  | unlock (mutex : Mutex) (rest : Locking Mutex Field)
  | access (field : Field) (writes : Bool) (rest : Locking Mutex Field)
  | branch (first second : Locking Mutex Field)
  deriving DecidableEq

variable {Mutex : Type uMutex} {Field : Type uField} [DecidableEq Mutex]

namespace Locking

/-- The longest way to the end. -/
def size : Locking Mutex Field → Nat
  | .done => 0
  | .lock _ rest => rest.size + 1
  | .unlock _ rest => rest.size + 1
  | .access _ _ rest => rest.size + 1
  | .branch first second => max first.size second.size + 1

/-- One step, with the mutexes that are locked after it. A locked mutex has to be
waited for; to unlock one that is not locked kills the process. -/
def step (locked : Finset Mutex) (second : Bool) :
    Locking Mutex Field → Option (Locking Mutex Field × Finset Mutex)
  | .done => none
  | .lock mutex rest => if mutex ∈ locked then none else some (rest, insert mutex locked)
  | .unlock mutex rest => if mutex ∈ locked then some (rest, locked.erase mutex) else none
  | .access _ _ rest => some (rest, locked)
  | .branch left right => some (if second then right else left, locked)

/-- A thread that nothing interrupts, with the branches that it takes. -/
def alone (locked : Finset Mutex) (program : Locking Mutex Field) :
    List Bool → Option (Locking Mutex Field × Finset Mutex)
  | [] => some (program, locked)
  | second :: rest => (program.step locked second).bind fun next => next.1.alone next.2 rest

/-- The fields that a thread writes on its way. -/
def written : Locking Mutex Field → List Bool → List Field
  | _, [] => []
  | .done, _ => []
  | .lock _ rest, _ :: choices => rest.written choices
  | .unlock _ rest, _ :: choices => rest.written choices
  | .access field true rest, _ :: choices => field :: rest.written choices
  | .access _ false rest, _ :: choices => rest.written choices
  | .branch left right, second :: choices =>
      if second then right.written choices else left.written choices

/-- A call and, where it ends, what its caller does after it. -/
def andThen : Locking Mutex Field → Locking Mutex Field → Locking Mutex Field
  | .done, next => next
  | .lock mutex rest, next => .lock mutex (rest.andThen next)
  | .unlock mutex rest, next => .unlock mutex (rest.andThen next)
  | .access field writes rest, next => .access field writes (rest.andThen next)
  | .branch first second, next => .branch (first.andThen next) (second.andThen next)

/-- With the mutexes `held`, what is left of the call takes mutexes by increasing
rank, touches fields as it is allowed to, and ends with none held. -/
def Disciplined {Rank : Type*} [Preorder Rank] (rank : Mutex → Rank)
    (allowed : Finset Mutex → Field → Bool → Prop) :
    Finset Mutex → Locking Mutex Field → Prop
  | held, .done => held = ∅
  | held, .lock mutex rest => (∀ other ∈ held, rank other < rank mutex) ∧
      Disciplined rank allowed (insert mutex held) rest
  | held, .unlock mutex rest => mutex ∈ held ∧
      Disciplined rank allowed (held.erase mutex) rest
  | held, .access field writes rest => allowed held field writes ∧
      Disciplined rank allowed held rest
  | held, .branch first second => Disciplined rank allowed held first ∧
      Disciplined rank allowed held second

/-- How the head of a call changes a set of mutexes. -/
def change : Locking Mutex Field → Finset Mutex → Finset Mutex
  | .lock mutex _, mutexes => insert mutex mutexes
  | .unlock mutex _, mutexes => mutexes.erase mutex
  | _, mutexes => mutexes

section Step

variable {program next : Locking Mutex Field} {locked after : Finset Mutex} {second : Bool}

theorem step_locked (hstep : program.step locked second = some (next, after)) :
    after = program.change locked := by
  cases program with
  | done => cases hstep
  | lock mutex rest =>
      simp only [step] at hstep
      split at hstep
      · cases hstep
      · exact (Prod.mk.inj (Option.some.inj hstep)).2.symm
  | unlock mutex rest =>
      simp only [step] at hstep
      split at hstep
      · exact (Prod.mk.inj (Option.some.inj hstep)).2.symm
      · cases hstep
  | access field writes rest => exact (Prod.mk.inj (Option.some.inj hstep)).2.symm
  | branch left right => exact (Prod.mk.inj (Option.some.inj hstep)).2.symm

omit [DecidableEq Mutex] in
@[simp] theorem written_nil (program : Locking Mutex Field) : program.written [] = [] := by
  cases program <;> rfl

theorem written_cons (hstep : program.step locked second = some (next, after))
    (choices : List Bool) :
    program.written (second :: choices) = program.written [second] ++ next.written choices := by
  cases program with
  | done => cases hstep
  | lock mutex rest =>
      simp only [step] at hstep
      split at hstep
      · cases hstep
      · rw [← (Prod.mk.inj (Option.some.inj hstep)).1]
        simp [written]
  | unlock mutex rest =>
      simp only [step] at hstep
      split at hstep
      · rw [← (Prod.mk.inj (Option.some.inj hstep)).1]
        simp [written]
      · cases hstep
  | access field writes rest =>
      rw [← (Prod.mk.inj (Option.some.inj hstep)).1]
      cases writes <;> simp [written]
  | branch left right =>
      rw [← (Prod.mk.inj (Option.some.inj hstep)).1]
      cases second <;> simp [written]

theorem step_size (hstep : program.step locked second = some (next, after)) :
    next.size + 1 ≤ program.size := by
  cases program with
  | done => cases hstep
  | lock mutex rest =>
      simp only [step] at hstep
      split at hstep
      · cases hstep
      · rw [← (Prod.mk.inj (Option.some.inj hstep)).1, size]
  | unlock mutex rest =>
      simp only [step] at hstep
      split at hstep
      · rw [← (Prod.mk.inj (Option.some.inj hstep)).1, size]
      · cases hstep
  | access field writes rest => rw [← (Prod.mk.inj (Option.some.inj hstep)).1, size]
  | branch left right =>
      rw [← (Prod.mk.inj (Option.some.inj hstep)).1, size]
      split <;> omega

variable {Rank : Type*} [Preorder Rank] {rank : Mutex → Rank}
  {allowed : Finset Mutex → Field → Bool → Prop} {held : Finset Mutex}

theorem Disciplined.step (hprogram : program.Disciplined rank allowed held)
    (hstep : program.step locked second = some (next, after)) :
    next.Disciplined rank allowed (program.change held) := by
  cases program with
  | done => cases hstep
  | lock mutex rest =>
      simp only [Locking.step] at hstep
      split at hstep
      · cases hstep
      · exact (Prod.mk.inj (Option.some.inj hstep)).1 ▸ hprogram.2
  | unlock mutex rest =>
      simp only [Locking.step] at hstep
      split at hstep
      · exact (Prod.mk.inj (Option.some.inj hstep)).1 ▸ hprogram.2
      · cases hstep
  | access field writes rest => exact (Prod.mk.inj (Option.some.inj hstep)).1 ▸ hprogram.2
  | branch left right =>
      rw [← (Prod.mk.inj (Option.some.inj hstep)).1]
      cases second with
      | false => exact hprogram.1
      | true => exact hprogram.2

theorem Disciplined.andThen (hprogram : program.Disciplined rank allowed held)
    (hnext : next.Disciplined rank allowed ∅) :
    (program.andThen next).Disciplined rank allowed held := by
  induction program generalizing held with
  | done =>
      obtain rfl : held = ∅ := hprogram
      exact hnext
  | lock mutex rest ih => exact ⟨hprogram.1, ih hprogram.2⟩
  | unlock mutex rest ih => exact ⟨hprogram.1, ih hprogram.2⟩
  | access field writes rest ih => exact ⟨hprogram.1, ih hprogram.2⟩
  | branch left right ihLeft ihRight => exact ⟨ihLeft hprogram.1, ihRight hprogram.2⟩

/-- A disciplined thread that cannot go on is at its end, or waits for a mutex that ranks
above all it holds. -/
theorem Disciplined.step_or_waits (hprogram : program.Disciplined rank allowed held)
    (hheld : held ⊆ locked) :
    program = .done ∨ (program.step locked false).isSome ∨
      ∃ mutex rest, program = .lock mutex rest ∧ mutex ∈ locked ∧
        ∀ other ∈ held, rank other < rank mutex := by
  cases program with
  | done => exact .inl rfl
  | lock mutex rest =>
      by_cases hmutex : mutex ∈ locked
      · exact .inr (.inr ⟨mutex, rest, rfl, hmutex, hprogram.1⟩)
      · exact .inr (.inl (by simp [Locking.step, hmutex]))
  | unlock mutex rest => exact .inr (.inl (by simp [Locking.step, hheld hprogram.1]))
  | access field writes rest => exact .inr (.inl rfl)
  | branch left right => exact .inr (.inl rfl)

end Step

end Locking

/-! ## Threads -/

/-- Threads are named by the order in which their calls were made. -/
structure Pool (Mutex : Type uMutex) (Field : Type uField) where
  locked : Finset Mutex
  threads : List (Locking Mutex Field)

inductive Pool.Label (Call : Type uCall)
  | call (call : Call)
  | advance (thread : Nat) (second : Bool)

namespace Pool

def empty : Pool Mutex Field := ⟨∅, []⟩

def advance (pool : Pool Mutex Field) (thread : Nat) (second : Bool) :
    Option (Pool Mutex Field) :=
  (pool.threads[thread]?).bind fun program =>
    (program.step pool.locked second).map fun next =>
      { locked := next.2, threads := pool.threads.set thread next.1 }

/-- The threads that are there, without new calls. -/
def scheduler : Machine (Pool Mutex Field) (Nat × Bool) where
  init pool := pool = empty
  step pool label := pool.advance label.1 label.2

/-- Calls of the given bodies, made at any time. -/
def machine {Call : Type uCall} (body : Call → Locking Mutex Field) :
    Machine (Pool Mutex Field) (Label Call) where
  init pool := pool = empty
  step pool label :=
    match label with
    | .call call => some { pool with threads := pool.threads ++ [body call] }
    | .advance thread second => pool.advance thread second

/-- Every call has ended and every mutex is free. -/
def Finished (pool : Pool Mutex Field) : Prop :=
  (∀ program ∈ pool.threads, program = .done) ∧ pool.locked = ∅

def size (pool : Pool Mutex Field) : Nat :=
  pool.threads.foldr (fun program others => program.size + others) 0

/-- A thread is about to unlock a mutex that is not locked. -/
def Fatal (pool : Pool Mutex Field) : Prop :=
  ∃ (thread : Nat) (mutex : Mutex) (rest : Locking Mutex Field),
    pool.threads[thread]? = some (.unlock mutex rest) ∧ mutex ∉ pool.locked

theorem advance_eq_some {pool next : Pool Mutex Field} {thread : Nat} {second : Bool}
    (hadvance : pool.advance thread second = some next) :
    ∃ program after, pool.threads[thread]? = some program ∧
      program.step pool.locked second = some (after, next.locked) ∧
      next.threads = pool.threads.set thread after := by
  obtain ⟨program, hprogram, hnext⟩ := Option.bind_eq_some_iff.mp hadvance
  obtain ⟨⟨after, locked⟩, hstep, rfl⟩ := Option.map_eq_some_iff.mp hnext
  exact ⟨program, after, hprogram, hstep, rfl⟩

theorem advance_of_step {pool : Pool Mutex Field} {thread : Nat} {second : Bool}
    {program after : Locking Mutex Field} {locked : Finset Mutex}
    (hprogram : pool.threads[thread]? = some program)
    (hstep : program.step pool.locked second = some (after, locked)) :
    pool.advance thread second = some ⟨locked, pool.threads.set thread after⟩ := by
  rw [advance, hprogram, Option.bind_some, hstep, Option.map_some]

section Alone

variable {Call : Type uCall} {body : Call → Locking Mutex Field} {thread : Nat}
  {after : Locking Mutex Field} {locked : Finset Mutex} {choices : List Bool}

/-- What a thread can do alone, it can do in a pool. -/
theorem run_alone :
    ∀ {pool : Pool Mutex Field} {program : Locking Mutex Field},
      pool.threads[thread]? = some program →
      program.alone pool.locked choices = some (after, locked) →
      (machine body).run pool (choices.map (.advance thread)) =
        some ⟨locked, pool.threads.set thread after⟩ := by
  induction choices with
  | nil =>
      intro pool program hprogram halone
      obtain ⟨rfl, rfl⟩ := Prod.mk.inj (Option.some.inj halone)
      obtain ⟨_, rfl⟩ := List.getElem?_eq_some_iff.mp hprogram
      rw [List.map_nil, Machine.run_nil, List.set_getElem_self]
  | cons second rest ih =>
      intro pool program hprogram halone
      obtain ⟨⟨next, middle⟩, hstep, hrest⟩ := Option.bind_eq_some_iff.mp halone
      refine Machine.run_cons _ |>.mpr ⟨⟨middle, pool.threads.set thread next⟩, ?_, ?_⟩
      · exact advance_of_step hprogram hstep
      · have hthread : (pool.threads.set thread next)[thread]? = some next :=
          List.getElem?_set_self (List.getElem?_eq_some_iff.mp hprogram).1
        have hlast : (machine body).run ⟨middle, pool.threads.set thread next⟩
            (rest.map (.advance thread)) =
              some ⟨locked, (pool.threads.set thread next).set thread after⟩ := ih hthread hrest
        rw [hlast, List.set_set]

/-- The fields that the threads of a run write, one after the other. -/
def writes (pool : Pool Mutex Field) : Label Call → List Field
  | .call _ => []
  | .advance thread second => (pool.threads[thread]?).elim [] (·.written [second])

theorem trace_alone :
    ∀ {pool : Pool Mutex Field} {program : Locking Mutex Field},
      pool.threads[thread]? = some program →
      program.alone pool.locked choices = some (after, locked) →
      (machine body).trace writes pool (choices.map (.advance thread)) =
        program.written choices := by
  induction choices with
  | nil =>
      intro pool program hprogram halone
      rw [Locking.written_nil]
      rfl
  | cons second rest ih =>
      intro pool program hprogram halone
      obtain ⟨⟨next, middle⟩, hstep, hrest⟩ := Option.bind_eq_some_iff.mp halone
      have hthread : (pool.threads.set thread next)[thread]? = some next :=
        List.getElem?_set_self (List.getElem?_eq_some_iff.mp hprogram).1
      have hlast : (machine body).trace writes ⟨middle, pool.threads.set thread next⟩
          (rest.map (.advance thread)) = next.written rest := ih hthread hrest
      have hadvance : (machine body).step pool (.advance thread second) =
          some ⟨middle, pool.threads.set thread next⟩ := advance_of_step hprogram hstep
      rw [List.map_cons, Machine.trace, hadvance]
      simp only [hlast, writes, hprogram, Option.elim_some]
      exact (Locking.written_cons hstep rest).symm

end Alone

/-- One more thread is the last. -/
theorem getElem?_concat_cases {Thread : Type*} {threads : List Thread} {last thread : Thread}
    {index : Nat} (hthread : (threads ++ [last])[index]? = some thread) :
    threads[index]? = some thread ∨ index = threads.length ∧ thread = last := by
  rcases Nat.lt_or_ge index threads.length with hlt | hge
  · rw [List.getElem?_append_left hlt] at hthread
    exact Or.inl hthread
  · right
    have hindex := (List.getElem?_eq_some_iff.mp hthread).1
    rw [List.length_append, List.length_singleton] at hindex
    obtain rfl : index = threads.length := by omega
    rw [List.getElem?_concat_length] at hthread
    exact ⟨rfl, (Option.some.inj hthread).symm⟩

/-! ## Pools of disciplined threads -/

section Orderly

variable {Rank : Type*} [Preorder Rank] {rank : Mutex → Rank}
  {allowed : Finset Mutex → Field → Bool → Prop}

/-- `held` gives each thread the mutexes it has locked and not unlocked. -/
structure Orderly (rank : Mutex → Rank) (allowed : Finset Mutex → Field → Bool → Prop)
    (pool : Pool Mutex Field) (held : Nat → Finset Mutex) : Prop where
  disciplined : ∀ thread (program : Locking Mutex Field), pool.threads[thread]? = some program →
    program.Disciplined rank allowed (held thread)
  outside : ∀ thread, pool.threads.length ≤ thread → held thread = ∅
  apart : ∀ first second mutex, mutex ∈ held first → mutex ∈ held second → first = second
  locked : ∀ mutex, mutex ∈ pool.locked ↔ ∃ thread, mutex ∈ held thread

variable {pool next : Pool Mutex Field} {held : Nat → Finset Mutex}

theorem orderly_empty : (empty : Pool Mutex Field).Orderly rank allowed fun _ => ∅ where
  disciplined thread program hprogram := by simp [empty] at hprogram
  outside _ _ := rfl
  apart first second mutex hfirst := by simp at hfirst
  locked mutex := by simp [empty]

theorem Orderly.subset (horderly : pool.Orderly rank allowed held) (thread : Nat) :
    held thread ⊆ pool.locked :=
  fun mutex hmutex => (horderly.locked mutex).mpr ⟨thread, hmutex⟩

theorem Orderly.launch {program : Locking Mutex Field} (horderly : pool.Orderly rank allowed held)
    (hprogram : program.Disciplined rank allowed ∅) :
    Orderly rank allowed { pool with threads := pool.threads ++ [program] } held where
  disciplined thread other hother := by
    rcases getElem?_concat_cases hother with hold | ⟨rfl, rfl⟩
    · exact horderly.disciplined thread other hold
    · rw [horderly.outside _ (Nat.le_refl _)]
      exact hprogram
  outside thread hge := by
    apply horderly.outside thread
    rw [List.length_append] at hge
    omega
  apart := horderly.apart
  locked := horderly.locked

/-- Taking a mutex that is free, or giving back one that is held, keeps the threads apart. -/
theorem Orderly.change {program : Locking Mutex Field} {thread : Nat} {second : Bool}
    {after : Locking Mutex Field} {locked : Finset Mutex}
    (horderly : pool.Orderly rank allowed held) (hprogram : pool.threads[thread]? = some program)
    (hstep : program.step pool.locked second = some (after, locked)) :
    (∀ other mutex, other ≠ thread → mutex ∈ held other →
      mutex ∉ program.change (held thread)) ∧
    ∀ mutex, mutex ∈ program.change pool.locked ↔
      mutex ∈ program.change (held thread) ∨ ∃ other, other ≠ thread ∧ mutex ∈ held other := by
  have hlocked (mutex : Mutex) : mutex ∈ pool.locked ↔
      mutex ∈ held thread ∨ ∃ other, other ≠ thread ∧ mutex ∈ held other := by
    rw [horderly.locked]
    constructor
    · rintro ⟨other, hother⟩
      by_cases heq : other = thread
      · exact .inl (heq ▸ hother)
      · exact .inr ⟨other, heq, hother⟩
    · rintro (hthread | ⟨other, -, hother⟩)
      · exact ⟨thread, hthread⟩
      · exact ⟨other, hother⟩
  have hapart (other : Nat) (mutex : Mutex) (hne : other ≠ thread) (hother : mutex ∈ held other) :
      mutex ∉ held thread :=
    fun hthread => hne (horderly.apart other thread mutex hother hthread)
  cases program with
  | done => cases hstep
  | access field writes rest => exact ⟨hapart, hlocked⟩
  | branch left right => exact ⟨hapart, hlocked⟩
  | lock mutex rest =>
      -- The step goes through, so nobody holds the mutex.
      have hfree : mutex ∉ pool.locked := by
        intro hmutex
        simp [Locking.step, hmutex] at hstep
      constructor
      · intro other taken hne hother htaken
        rcases Finset.mem_insert.mp htaken with rfl | hthread
        · exact hfree (horderly.subset other hother)
        · exact hapart other taken hne hother hthread
      · intro taken
        simp only [Locking.change, Finset.mem_insert, hlocked, or_assoc]
  | unlock mutex rest =>
      -- By discipline the mutex is the thread's own to unlock.
      have hmine : mutex ∈ held thread := (horderly.disciplined thread _ hprogram).1
      constructor
      · intro other taken hne hother htaken
        exact hapart other taken hne hother (Finset.mem_of_mem_erase htaken)
      · intro taken
        simp only [Locking.change, Finset.mem_erase, hlocked]
        constructor
        · rintro ⟨hne, hthread | hothers⟩
          · exact .inl ⟨hne, hthread⟩
          · exact .inr hothers
        · rintro (⟨hne, hthread⟩ | ⟨other, hother, htaken⟩)
          · exact ⟨hne, .inl hthread⟩
          · refine ⟨?_, .inr ⟨other, hother, htaken⟩⟩
            rintro rfl
            exact hapart other taken hother htaken hmine

theorem Orderly.advance {thread : Nat} {second : Bool} (horderly : pool.Orderly rank allowed held)
    (hadvance : pool.advance thread second = some next) :
    ∃ held', next.Orderly rank allowed held' := by
  obtain ⟨program, after, hprogram, hstep, hthreads⟩ := advance_eq_some hadvance
  obtain ⟨hapart, hlocked⟩ := horderly.change hprogram hstep
  have hlt := (List.getElem?_eq_some_iff.mp hprogram).1
  refine ⟨Function.update held thread (program.change (held thread)), ?_, ?_, ?_, ?_⟩
  · intro other current hcurrent
    rw [hthreads] at hcurrent
    by_cases heq : other = thread
    · subst heq
      rw [List.getElem?_set_self hlt] at hcurrent
      rw [Function.update_self, ← Option.some.inj hcurrent]
      exact (horderly.disciplined other program hprogram).step hstep
    · rw [List.getElem?_set_ne (Ne.symm heq)] at hcurrent
      rw [Function.update_of_ne heq]
      exact horderly.disciplined other current hcurrent
  · intro other hge
    rw [hthreads, List.length_set] at hge
    rw [Function.update_of_ne (by omega)]
    exact horderly.outside other hge
  · intro first other mutex hfirst hother
    by_cases hthread : first = thread <;> by_cases hthread' : other = thread
    · rw [hthread, hthread']
    · rw [hthread, Function.update_self] at hfirst
      rw [Function.update_of_ne hthread'] at hother
      exact absurd hfirst (hapart other mutex hthread' hother)
    · rw [hthread', Function.update_self] at hother
      rw [Function.update_of_ne hthread] at hfirst
      exact absurd hother (hapart first mutex hthread hfirst)
    · rw [Function.update_of_ne hthread] at hfirst
      rw [Function.update_of_ne hthread'] at hother
      exact horderly.apart first other mutex hfirst hother
  · intro mutex
    rw [Locking.step_locked hstep, hlocked]
    constructor
    · rintro (hmine | ⟨other, hne, hother⟩)
      · exact ⟨thread, by rwa [Function.update_self]⟩
      · exact ⟨other, by rwa [Function.update_of_ne hne]⟩
    · rintro ⟨other, hother⟩
      by_cases hne : other = thread
      · rw [hne, Function.update_self] at hother
        exact .inl hother
      · rw [Function.update_of_ne hne] at hother
        exact .inr ⟨other, hne, hother⟩

/-- In a pool of disciplined bodies the threads are disciplined at any time. -/
theorem orderly_of_reachable {Call : Type uCall} {body : Call → Locking Mutex Field}
    (hbody : ∀ call, (body call).Disciplined rank allowed ∅)
    (hreach : (machine body).Reachable pool) : ∃ held, pool.Orderly rank allowed held := by
  apply hreach.invariant
  · rintro state rfl
    exact ⟨_, orderly_empty⟩
  · rintro state label next ⟨held, horderly⟩ hstep
    cases label with
    | call call =>
        obtain rfl := Option.some.inj hstep
        exact ⟨held, horderly.launch (hbody call)⟩
    | advance thread second => exact horderly.advance hstep

theorem Orderly.not_fatal (horderly : pool.Orderly rank allowed held) : ¬ pool.Fatal := by
  rintro ⟨thread, mutex, rest, hprogram, hfree⟩
  exact hfree (horderly.subset thread (horderly.disciplined thread _ hprogram).1)

/-- Behind every locked mutex is a thread that can go on: whoever waits, waits for a mutex of
higher rank. -/
theorem Orderly.exists_advance [WellFoundedGT Rank] (horderly : pool.Orderly rank allowed held)
    (mutex : Mutex) (hlocked : mutex ∈ pool.locked) :
    ∃ label : Nat × Bool, (pool.advance label.1 label.2).isSome := by
  induction hrank : rank mutex using WellFoundedGT.induction generalizing mutex with
  | ind value ih =>
      obtain ⟨thread, hmine⟩ := (horderly.locked mutex).mp hlocked
      have hlt : thread < pool.threads.length := by
        by_contra hge
        rw [horderly.outside thread (Nat.le_of_not_lt hge)] at hmine
        exact absurd hmine (Finset.notMem_empty mutex)
      have hprogram := List.getElem?_eq_getElem hlt
      have hdisciplined := horderly.disciplined thread _ hprogram
      rcases hdisciplined.step_or_waits (horderly.subset thread) with
        hdone | hstep | ⟨wanted, rest, -, hwanted, habove⟩
      · rw [hdone] at hdisciplined
        rw [hdisciplined] at hmine
        exact absurd hmine (Finset.notMem_empty mutex)
      · obtain ⟨⟨after, locked⟩, hstep⟩ := Option.isSome_iff_exists.mp hstep
        exact ⟨(thread, false), by rw [advance_of_step hprogram hstep]; rfl⟩
      · exact ih (rank wanted) (hrank ▸ habove mutex hmine) wanted hwanted rfl

theorem size_advance {thread : Nat} {second : Bool}
    (hadvance : pool.advance thread second = some next) : next.size + 1 ≤ pool.size := by
  obtain ⟨program, after, hprogram, hstep, hthreads⟩ := advance_eq_some hadvance
  rw [size, size, hthreads]
  clear hthreads hadvance
  generalize pool.threads = threads at hprogram
  induction threads generalizing thread with
  | nil => simp at hprogram
  | cons first others ih =>
      cases thread with
      | zero =>
          obtain rfl := Option.some.inj hprogram
          have hsize := Locking.step_size hstep
          simp only [List.set_cons_zero, List.foldr_cons]
          omega
      | succ thread =>
          have hothers := ih hprogram
          simp only [List.set_cons_succ, List.foldr_cons]
          omega

/-- However the threads of an orderly pool are scheduled, they all end: no schedule gets
stuck before, and none is longer than the calls are. -/
theorem Orderly.endsWithin [WellFoundedGT Rank] (horderly : pool.Orderly rank allowed held) :
    scheduler.EndsWithin (fun _ => true) Finished pool.size pool := by
  have hstep (state : Pool Mutex Field) (label : Nat × Bool) (next : Pool Mutex Field)
      (hstate : ∃ held, state.Orderly rank allowed held)
      (hadvance : state.advance label.1 label.2 = some next) :
      (∃ held, next.Orderly rank allowed held) ∧ next.size + (if true then 1 else 0) ≤
        state.size := by
    obtain ⟨held, horderly⟩ := hstate
    exact ⟨horderly.advance hadvance, size_advance hadvance⟩
  have hlive (state : Pool Mutex Field) (hstate : ∃ held, state.Orderly rank allowed held)
      (hfinished : ¬ state.Finished) :
      ∃ label : Nat × Bool, true = true ∧ (state.advance label.1 label.2).isSome := by
    obtain ⟨held, horderly⟩ := hstate
    suffices hgoes : ∃ label : Nat × Bool, (state.advance label.1 label.2).isSome from
      hgoes.imp fun _ hadvance => ⟨rfl, hadvance⟩
    by_cases hlocked : state.locked = ∅
    · have hunfinished : ¬ ∀ program ∈ state.threads, program = .done :=
        fun hall => hfinished ⟨hall, hlocked⟩
      push Not at hunfinished
      obtain ⟨program, hmem, hrunning⟩ := hunfinished
      obtain ⟨thread, hprogram⟩ := List.mem_iff_getElem?.mp hmem
      rcases (horderly.disciplined thread program hprogram).step_or_waits
        (horderly.subset thread) with hdone | hstep | ⟨mutex, rest, -, hmutex, -⟩
      · exact absurd hdone hrunning
      · obtain ⟨⟨after, locked⟩, hstep⟩ := Option.isSome_iff_exists.mp hstep
        exact ⟨(thread, false), by rw [advance_of_step hprogram hstep]; rfl⟩
      · rw [hlocked] at hmutex
        exact absurd hmutex (Finset.notMem_empty mutex)
    · obtain ⟨mutex, hmutex⟩ := Finset.nonempty_iff_ne_empty.mpr hlocked
      exact horderly.exists_advance mutex hmutex
  exact scheduler.endsWithin_rank size hstep hlive ⟨held, horderly⟩

end Orderly

end Pool

end Kapprofiler.Foundation
