import Kapprofiler.Collector.PassProgress

/-! # Overlapping passes

The passes of two containers of one pod read and write the same profile. Nothing
orders them but the version that an update presents: a pass whose copy was
overtaken by an effective write of the other is rejected, and gives its
container up. Passes whose reads and writes do not interleave keep their batches.
-/

namespace Kapprofiler.Collector

open Foundation

variable {config : CollectorManagerConfig}

namespace Collecting

/-- The step is one of the two passes', and its requests do not fail. -/
def Interleaves (pass other : Collecting) (_ : System) : Label → Prop
  | .advance call answers => (call = pass.call ∨ call = other.call) ∧ answers.Succeed
  | _ => False

instance (pass other : Collecting) (system : System) :
    DecidablePred (Interleaves pass other system)
  | .advance call answers =>
      inferInstanceAs (Decidable ((call = pass.call ∨ call = other.call) ∧ answers.Succeed))
  | .containerStarted _ _ | .containerStopped _ | .timerExpired _ | .sink _ | .podAdded _
  | .podUpdated _ | .podDeleted _ | .finalizationTimerExpired _
  | .finalizeApplicationProfile _ => isFalse fun h => h

/-- The step is an effective write of the other pass, and this pass is in the window. -/
def overtakes (config : CollectorManagerConfig) (window : PassState → Bool)
    (pass other : Collecting) (system : System) : Label → Bool
  | .advance call answers =>
      call = other.call &&
      (match system.calls[pass.call]? with
        | some (.collectContainerEvents _ state) => window state
        | _ => false) &&
      (match step config system (.advance call answers) with
        | some next => next.world.profiles.revision ≠ system.world.profiles.revision
        | none => false)
  | _ => false

/-- No effective write of the other pass falls between the read of this one and its
write. -/
def Undisturbed (config : CollectorManagerConfig) (pass other : Collecting) (system : System)
    (labels : List Label) : Prop :=
  (machine config).Along
    (fun system label => overtakes config PassState.hasRead pass other system label = false)
    system labels

/-- An effective write of the other pass falls between the read of a stored profile by
this one and its update. -/
def Overtaken (config : CollectorManagerConfig) (pass other : Collecting) (system : System)
    (labels : List Label) : Prop :=
  ∃ before label after middle, labels = before ++ label :: after ∧
    (machine config).run system before = some middle ∧
    overtakes config PassState.holdsCopy pass other middle label = true

end Collecting

/-- However two passes interleave, both keep their container and their batch, and
neither marks the profile failed. -/
def PassesKept (config : CollectorManagerConfig) (pass other : Collecting) (system : System) :
    Prop :=
  ∀ labels last, (machine config).Along (Collecting.Interleaves pass other) system labels →
    (machine config).run system labels = some last →
    pass.HasReturned last → other.HasReturned last →
    pass.Kept config last.world ∧ other.Kept config last.world ∧
      (FailedMarked config pass.id last.world → FailedMarked config pass.id system.world)

namespace Collecting

variable {pass other : Collecting} {answers : Answers} {state : PassState}

/-! ## One step of the interleaving -/

/-- What holds of two passes at any point of their interleaving. -/
structure Overlap (config : CollectorManagerConfig) (pass other : Collecting)
    (system : System) : Prop where
  copies : CopiesFaithful config system
  notFinal : ∀ object ∈ system.world.profiles.get (pass.id.profileKey config),
    ¬ object.value.isFinal
  progress : ∃ state, pass.At system state ∧ pass.Progress config system.world state
  otherProgress : ∃ state, other.At system state ∧ other.Progress config system.world state

theorem Overlap.symm {system : System} (hpod : SamePod pass other)
    (hoverlap : Overlap config pass other system) : Overlap config other pass system where
  copies := hoverlap.copies
  notFinal := by
    rw [hpod.profileKey]
    exact hoverlap.notFinal
  progress := hoverlap.otherProgress
  otherProgress := hoverlap.progress

/-- The step of a pass in the machine is its step. -/
theorem step_at {system next : System} (hat : pass.At system state)
    (hstep : Collector.step config system (.advance pass.call answers) = some next) :
    next.world = (collectStep config pass.id answers system.world state).2 ∧
      pass.At next (collectStep config pass.id answers system.world state).1 ∧
      ∀ (other : Collecting) (otherState : PassState), pass.call ≠ other.call →
        other.At system otherState → other.At next otherState := by
  obtain ⟨hworld, hcalls, hnext⟩ := step_pass hat hstep
  refine ⟨hworld, hnext, ?_⟩
  intro other otherState hne hother
  unfold At at hother ⊢
  rwa [hcalls, List.getElem?_set_ne hne]

theorem Overlap.faithful {system : System} (hoverlap : Overlap config pass other system)
    (hat : pass.At system state) : ∀ copy, state.copy = some copy →
      system.world.profiles.Faithful (pass.id.profileKey config) copy :=
  fun copy hcopy =>
    (hoverlap.copies pass.id state copy (List.mem_of_getElem? hat) hcopy).1

theorem Overlap.step_self {system next start : System} (hpod : SamePod pass other)
    (hready : pass.Ready start) (hoverlap : Overlap config pass other system)
    (hstep : Collector.step config system (.advance pass.call answers) = some next) :
    Overlap config pass other next := by
  obtain ⟨state, hat, hprogress⟩ := hoverlap.progress
  obtain ⟨otherState, hotherAt, hother⟩ := hoverlap.otherProgress
  obtain ⟨hworld, hnextAt, hkept⟩ := step_at hat hstep
  have hfaithful := hoverlap.faithful hat
  refine ⟨step_copiesFaithful hoverlap.copies hstep, ?_, ⟨_, hnextAt, ?_⟩,
    otherState, hkept other otherState (hpod.call_ne hat hotherAt) hotherAt, ?_⟩
  · rw [hworld]
    rcases collectStep_write hprogress hfaithful with heq | hwrite
    · rw [heq]
      exact hoverlap.notFinal
    · exact hwrite.not_final hready.opens hoverlap.notFinal
  · rw [hworld]
    exact hprogress.step hready.nonempty hready.opens hoverlap.notFinal hfaithful
  · rw [hworld]
    exact hother.other_step hpod.symm hprogress hfaithful

theorem Interleaves.mover {system : System} {label : Label}
    (hinterleaves : Interleaves pass other system label) : ∃ answers : Answers, answers.Succeed ∧
      (label = .advance pass.call answers ∨ label = .advance other.call answers) := by
  cases label with
  | advance call answers =>
      obtain ⟨hcall, hsucceed⟩ := hinterleaves
      refine ⟨answers, hsucceed, ?_⟩
      rcases hcall with rfl | rfl
      · exact Or.inl rfl
      · exact Or.inr rfl
  | containerStarted id attach => exact hinterleaves.elim
  | containerStopped id => exact hinterleaves.elim
  | timerExpired id => exact hinterleaves.elim
  | sink op => exact hinterleaves.elim
  | podAdded pod => exact hinterleaves.elim
  | podUpdated pod => exact hinterleaves.elim
  | podDeleted pod => exact hinterleaves.elim
  | finalizationTimerExpired timer => exact hinterleaves.elim
  | finalizeApplicationProfile id => exact hinterleaves.elim

section Runs

variable {system next start last : System} {labels : List Label} {label : Label}

theorem Overlap.step (hpod : SamePod pass other) (hready : pass.Ready start)
    (hotherReady : other.Ready start) (hoverlap : Overlap config pass other system)
    (hinterleaves : Interleaves pass other system label)
    (hstep : Collector.step config system label = some next) :
    Overlap config pass other next := by
  obtain ⟨answers, _, rfl | rfl⟩ := hinterleaves.mover
  · exact hoverlap.step_self hpod hready hstep
  · exact ((hoverlap.symm hpod).step_self hpod.symm hotherReady hstep).symm hpod.symm

theorem overtakes_eq {window : PassState → Bool} (hat : pass.At system state)
    (hstep : Collector.step config system (.advance other.call answers) = some next) :
    overtakes config window pass other system (.advance other.call answers) =
      (window state &&
        decide (next.world.profiles.revision ≠ system.world.profiles.revision)) := by
  unfold At at hat
  simp [overtakes, hat, hstep]

/-- As long as no write of the other pass comes in between, what the pass read stays
what is stored. -/
theorem step_current (hpod : SamePod pass other) (hready : pass.Ready start)
    (hoverlap : Overlap config pass other system)
    (hinterleaves : Interleaves pass other system label)
    (hapart : overtakes config PassState.hasRead pass other system label = false)
    (hstep : Collector.step config system label = some next)
    (hcurrent : ∃ state, pass.At system state ∧ pass.Current config system.world state) :
    ∃ state, pass.At next state ∧ pass.Current config next.world state := by
  obtain ⟨state, hat, hcurrent⟩ := hcurrent
  obtain ⟨state', hat', hprogress⟩ := hoverlap.progress
  obtain rfl := At.unique hat hat'
  obtain ⟨otherState, hotherAt, hother⟩ := hoverlap.otherProgress
  obtain ⟨answers, hsucceed, rfl | rfl⟩ := hinterleaves.mover
  · obtain ⟨hworld, hnextAt, _⟩ := step_at hat hstep
    refine ⟨_, hnextAt, ?_⟩
    rw [hworld]
    exact hcurrent.step hprogress hsucceed hready.nonempty hready.opens hoverlap.notFinal
  · obtain ⟨hworld, _, hkept⟩ := step_at hotherAt hstep
    refine ⟨state, hkept pass state (hpod.call_ne hat hotherAt).symm hat, ?_⟩
    -- An effective write takes a new revision, so without one nothing was written.
    have hsame : state.hasRead = true → next.world.profiles = system.world.profiles := by
      intro hread
      rw [overtakes_eq hat hstep, hread, Bool.true_and, decide_eq_false_iff_not, not_not] at hapart
      rw [hworld] at hapart ⊢
      rcases collectStep_write hother ((hoverlap.symm hpod).faithful hotherAt) with heq | hwrite
      · exact heq
      · rcases hwrite.eq_or_put with heq | ⟨value, heq⟩
        · exact heq
        · rw [heq] at hapart
          exact absurd hapart (Nat.succ_ne_self _)
    exact hcurrent.of_same hsame

/-- Two passes whose reads and writes do not interleave mark nothing failed. -/
theorem step_failed (hready : pass.Ready start)
    (hoverlap : Overlap config pass other system)
    (hcurrent : ∃ state, pass.At system state ∧ pass.Current config system.world state)
    (hstep : Collector.step config system (.advance pass.call answers) = some next)
    (hfailed : FailedMarked config pass.id next.world) :
    FailedMarked config pass.id system.world := by
  obtain ⟨state, hat, hcurrent⟩ := hcurrent
  obtain ⟨state', hat', hprogress⟩ := hoverlap.progress
  obtain rfl := At.unique hat hat'
  obtain ⟨hworld, _, _⟩ := step_at hat hstep
  unfold FailedMarked at hfailed ⊢
  rw [hworld] at hfailed
  rcases collectStep_write hprogress (hoverlap.faithful hat) with heq | hwrite
  · rwa [heq] at hfailed
  · refine hwrite.failed hready.opens ?_ hfailed
    rintro rfl
    cases hcurrent

/-- A rejected pass and a pass that has written are past influencing each other. -/
structure Settled (config : CollectorManagerConfig) (pass other : Collecting)
    (system : System) : Prop where
  rejected : ∃ state, pass.At system state ∧ pass.Rejected config system.world state
  written : ∃ state, other.At system state ∧ Written state

theorem Settled.step (hpod : SamePod pass other) (hsettled : Settled config pass other system)
    (hinterleaves : Interleaves pass other system label)
    (hstep : Collector.step config system label = some next) :
    Settled config pass other next := by
  obtain ⟨state, hat, hrejected⟩ := hsettled.rejected
  obtain ⟨otherState, hotherAt, hwritten⟩ := hsettled.written
  obtain ⟨answers, hsucceed, rfl | rfl⟩ := hinterleaves.mover
  · obtain ⟨hworld, hnextAt, hkept⟩ := step_at hat hstep
    refine ⟨⟨_, hnextAt, ?_⟩,
      otherState, hkept other otherState (hpod.call_ne hat hotherAt) hotherAt, hwritten⟩
    rw [hworld]
    exact hrejected.step hsucceed
  · obtain ⟨hworld, hnextAt, hkept⟩ := step_at hotherAt hstep
    refine ⟨⟨state, hkept pass state (hpod.call_ne hat hotherAt).symm hat, ?_⟩, _, hnextAt, ?_⟩
    · rw [hworld]
      exact hrejected.of_written hwritten
    · cases otherState <;> first | exact hwritten.elim | trivial

/-- Once its copy was overtaken, a pass is going to be rejected. -/
theorem settled_of_overtakes (hpod : SamePod pass other)
    (hoverlap : Overlap config pass other system)
    (hovertakes : overtakes config PassState.holdsCopy pass other system label = true)
    (hinterleaves : Interleaves pass other system label)
    (hstep : Collector.step config system label = some next) :
    Settled config pass other next := by
  obtain ⟨state, hat, hprogress⟩ := hoverlap.progress
  obtain ⟨otherState, hotherAt, hother⟩ := hoverlap.otherProgress
  obtain ⟨answers, _, rfl | rfl⟩ := hinterleaves.mover
  · simp [overtakes, hpod.call_ne hat hotherAt] at hovertakes
  · obtain ⟨hworld, hnextAt, hkept⟩ := step_at hotherAt hstep
    rw [overtakes_eq hat hstep, Bool.and_eq_true, decide_eq_true_eq] at hovertakes
    obtain ⟨hcopy, hrevision⟩ := hovertakes
    rw [hworld] at hrevision
    have hchanged : (collectStep config other.id answers system.world otherState).2.profiles ≠
        system.world.profiles := fun heq => hrevision (heq ▸ rfl)
    have hwrite := (collectStep_write hother
      ((hoverlap.symm hpod).faithful hotherAt)).resolve_left hchanged
    obtain ⟨value, hput⟩ := hwrite.eq_or_put.resolve_left hchanged
    refine ⟨⟨state, hkept pass state (hpod.call_ne hat hotherAt).symm hat, ?_⟩,
      _, hnextAt, hwrite.written hchanged⟩
    have hfaithful := hoverlap.faithful hat
    rw [hworld]
    cases hprogress with
    | @update found profile existing =>
        -- The copy was the stored object or older, and now it is older.
        refine .update ?_
        rw [hput, hpod.profileKey]
        exact (hfaithful existing rfl).stale_put value
    | _ => cases hcopy

/-! ## Whole interleavings -/

theorem Ready.overlap (hready : pass.Ready start) (hotherReady : other.Ready start)
    (hreach : (machine config).Reachable start)
    (hfinal : ∀ object ∈ start.world.profiles.get (pass.id.profileKey config),
      ¬ object.value.isFinal) : Overlap config pass other start where
  copies := reachable_copiesFaithful hreach
  notFinal := hfinal
  progress := ⟨_, hready.drained, .load hready.tracked⟩
  otherProgress := ⟨_, hotherReady.drained, .load hotherReady.tracked⟩

theorem run_overlap (hpod : SamePod pass other) (hready : pass.Ready start)
    (hotherReady : other.Ready start) (hoverlap : Overlap config pass other system)
    (hinterleaves : (machine config).Along (Interleaves pass other) system labels)
    (hrun : (machine config).run system labels = some last) : Overlap config pass other last :=
  Machine.run_invariant_along (machine config)
    (fun _ _ _ hoverlap hmeets hstep => hoverlap.step hpod hready hotherReady hmeets hstep)
    hoverlap hinterleaves hrun

/-- An undisturbed pass keeps its container and its batch. -/
theorem kept_of_undisturbed (hpod : SamePod pass other) (hready : pass.Ready start)
    (hotherReady : other.Ready start) (hoverlap : Overlap config pass other start)
    (hinterleaves : (machine config).Along (Interleaves pass other) start labels)
    (hapart : Undisturbed config pass other start labels)
    (hrun : (machine config).run start labels = some last) (hreturned : pass.HasReturned last) :
    pass.Kept config last.world := by
  have hpreserve : ∀ system label next,
      Overlap config pass other system ∧
        (∃ state, pass.At system state ∧ pass.Current config system.world state) →
      Interleaves pass other system label ∧
        overtakes config PassState.hasRead pass other system label = false →
      (machine config).step system label = some next →
      Overlap config pass other next ∧
        ∃ state, pass.At next state ∧ pass.Current config next.world state :=
    fun _ _ _ hinv hmeets hstep => ⟨hinv.1.step hpod hready hotherReady hmeets.1 hstep,
      step_current hpod hready hinv.1 hmeets.1 hmeets.2 hstep hinv.2⟩
  obtain ⟨hlast, state, hat, hcurrent⟩ := Machine.run_invariant_along (machine config) hpreserve
    ⟨hoverlap, _, hready.drained, .load⟩
    ((machine config).along_and.mpr ⟨hinterleaves, hapart⟩) hrun
  obtain ⟨exit, hexit⟩ := hreturned
  obtain ⟨state', hat', hprogress⟩ := hlast.progress
  obtain rfl := At.unique hat hexit
  obtain rfl := At.unique hat' hexit
  cases hcurrent with
  | returned hwritten =>
      cases hprogress with
      | returned hexit =>
          rcases hexit with rfl | rfl | ⟨_, hkept⟩
          · rcases hwritten with heq | heq <;> cases heq
          · rcases hwritten with heq | heq <;> cases heq
          · exact hkept

/-- A pass whose copy was overtaken gives its container up. -/
theorem givenUp_of_overtaken (hpod : SamePod pass other) (hready : pass.Ready start)
    (hotherReady : other.Ready start) (hoverlap : Overlap config pass other start)
    (hinterleaves : (machine config).Along (Interleaves pass other) start labels)
    (hovertaken : Overtaken config pass other start labels)
    (hrun : (machine config).run start labels = some last) (hreturned : pass.HasReturned last) :
    pass.GivenUp config last.world := by
  obtain ⟨before, label, after, middle, rfl, hbefore, hovertakes⟩ := hovertaken
  obtain ⟨hfirst, hrest⟩ := (machine config).along_append.mp hinterleaves
  obtain ⟨hlabel, hafter⟩ := hrest middle hbefore
  obtain ⟨middle', hbefore', hrun'⟩ := (machine config).run_append.mp hrun
  obtain rfl := Option.some.inj (hbefore.symm.trans hbefore')
  obtain ⟨next, hstep, hrun''⟩ := (machine config).run_cons.mp hrun'
  have hmiddle := run_overlap hpod hready hotherReady hoverlap hfirst hbefore
  have hsettled : Settled config pass other last :=
    Machine.run_invariant_along (machine config)
      (fun _ _ _ hsettled hmeets hstep => hsettled.step hpod hmeets hstep)
      (settled_of_overtakes hpod hmiddle hovertakes hlabel hstep) (hafter next hstep) hrun''
  obtain ⟨state, hat, hrejected⟩ := hsettled.rejected
  obtain ⟨exit, hexit⟩ := hreturned
  obtain rfl := At.unique hat hexit
  cases hrejected with
  | returned hgivenUp => exact hgivenUp

/-- Two undisturbed passes do not mark the profile failed. -/
theorem failed_of_undisturbed (hpod : SamePod pass other) (hready : pass.Ready start)
    (hotherReady : other.Ready start) (hoverlap : Overlap config pass other start)
    (hinterleaves : (machine config).Along (Interleaves pass other) start labels)
    (hapart : Undisturbed config pass other start labels)
    (hotherApart : Undisturbed config other pass start labels)
    (hrun : (machine config).run start labels = some last)
    (hfailed : FailedMarked config pass.id last.world) :
    FailedMarked config pass.id start.world := by
  have hinterleavesSymm : ∀ {system : System} {label : Label},
      Interleaves pass other system label → Interleaves other pass system label := by
    intro system label hmeets
    cases label with
    | advance call answers => exact ⟨hmeets.1.symm, hmeets.2⟩
    | _ => exact hmeets
  have hpreserve : ∀ system label next,
      (Overlap config pass other system ∧
        (∃ state, pass.At system state ∧ pass.Current config system.world state) ∧
        (∃ state, other.At system state ∧ other.Current config system.world state) ∧
        (FailedMarked config pass.id system.world → FailedMarked config pass.id start.world)) →
      (Interleaves pass other system label ∧
        overtakes config PassState.hasRead pass other system label = false) ∧
        overtakes config PassState.hasRead other pass system label = false →
      (machine config).step system label = some next →
      Overlap config pass other next ∧
        (∃ state, pass.At next state ∧ pass.Current config next.world state) ∧
        (∃ state, other.At next state ∧ other.Current config next.world state) ∧
        (FailedMarked config pass.id next.world → FailedMarked config pass.id start.world) := by
    rintro system label next ⟨hoverlap, hcurrent, hotherCurrent, hback⟩
      ⟨⟨hmeets, hapart⟩, hotherApart⟩ hstep
    have hsymm := hoverlap.symm hpod
    refine ⟨hoverlap.step hpod hready hotherReady hmeets hstep,
      step_current hpod hready hoverlap hmeets hapart hstep hcurrent,
      step_current hpod.symm hotherReady hsymm (hinterleavesSymm hmeets) hotherApart hstep
        hotherCurrent, ?_⟩
    intro hfailed
    apply hback
    -- Whichever pass moves, a mark that is there now was there before the step.
    obtain ⟨answers, _, rfl | rfl⟩ := hmeets.mover
    · exact step_failed hready hoverlap hcurrent hstep hfailed
    · unfold FailedMarked at hfailed ⊢
      rw [← hpod.profileKey] at hfailed ⊢
      exact step_failed hotherReady hsymm hotherCurrent hstep hfailed
  exact (Machine.run_invariant_along (machine config) hpreserve
    ⟨hoverlap, ⟨_, hready.drained, .load⟩, ⟨_, hotherReady.drained, .load⟩, fun h => h⟩
    ((machine config).along_and.mpr
      ⟨(machine config).along_and.mpr ⟨hinterleaves, hapart⟩, hotherApart⟩) hrun).2.2.2 hfailed

end Runs

end Collecting

/-- Two passes of one pod, in any interleaving: a pass that no effective write of the
other disturbs between its read and its write keeps its container and its batch; a
pass whose copy was overtaken gives its container up and marks the profile failed;
and if neither is disturbed, neither marks it. -/
theorem overlapping_passes {pass other : Collecting} {system last : System}
    {labels : List Label} (hreach : (machine config).Reachable system)
    (hpod : pass.SamePod other) (hready : pass.Ready system) (hotherReady : other.Ready system)
    (hfinal : ∀ object ∈ system.world.profiles.get (pass.id.profileKey config),
      ¬ object.value.isFinal)
    (hinterleaves : (machine config).Along (pass.Interleaves other) system labels)
    (hrun : (machine config).run system labels = some last)
    (hreturned : pass.HasReturned last) :
    (pass.Undisturbed config other system labels → pass.Kept config last.world) ∧
      (pass.Overtaken config other system labels → pass.GivenUp config last.world) ∧
      (pass.Undisturbed config other system labels → other.Undisturbed config pass system labels →
        FailedMarked config pass.id last.world → FailedMarked config pass.id system.world) := by
  have hoverlap := hready.overlap hotherReady hreach hfinal
  refine ⟨?_, ?_, ?_⟩
  · intro hapart
    exact Collecting.kept_of_undisturbed hpod hready hotherReady hoverlap hinterleaves hapart hrun
      hreturned
  · intro hovertaken
    exact Collecting.givenUp_of_overtaken hpod hready hotherReady hoverlap hinterleaves
      hovertaken hrun hreturned
  · intro hapart hotherApart
    exact Collecting.failed_of_undisturbed hpod hready hotherReady hoverlap hinterleaves hapart
      hotherApart hrun

/-! ## A pod with a sidecar -/

def sidecar : ContainerId where
  nameSpace := "default"
  podName := "nginx"
  container := "sidecar"
  containerID := "0987654321"
  nsMntId := 2
  pid := 2

/-- Both containers are started, a first pass creates the profile, and one pass of
each has drained its batch. -/
def sidecarRun : List Label :=
  .containerStarted nginx false :: List.replicate 7 (.advance 0 {}) ++
    .containerStarted sidecar false :: List.replicate 7 (.advance 1 {}) ++
    .timerExpired nginx :: List.replicate 11 (.advance 2 { peek := .ok ["read"] }) ++
    .timerExpired nginx :: List.replicate 7 (.advance 3 { peek := .ok ["write"] }) ++
    .timerExpired sidecar :: List.replicate 7 (.advance 4 { peek := .ok ["open"] })

def nginxPass : Collecting := ⟨3, nginx, ⟨true, false⟩, { syscallEvents := ["write"] }⟩

def sidecarPass : Collecting := ⟨4, sidecar, ⟨true, false⟩, { syscallEvents := ["open"] }⟩

/-- Both passes read the profile before the first one writes it. -/
def overlapRun : List Label :=
  List.replicate 2 (.advance 3 {}) ++ List.replicate 2 (.advance 4 {}) ++
    List.replicate 2 (.advance 3 {}) ++ List.replicate 6 (.advance 4 {})

theorem sidecar_given_up :
    ∃ system last, (machine mainConfig).run freshSystem sidecarRun = some system ∧
      (machine mainConfig).run system overlapRun = some last ∧
      nginxPass.Kept mainConfig last.world ∧ sidecarPass.GivenUp mainConfig last.world := by
  obtain ⟨system, last, hbefore, hready, hotherReady, hfinal, hinterleaves, hsymm, hrun,
      hreturned, hotherReturned, hapart, hovertaken⟩ :
      ∃ system last, (machine mainConfig).run freshSystem sidecarRun = some system ∧
        nginxPass.Ready system ∧ sidecarPass.Ready system ∧
        (∀ object ∈ system.world.profiles.get (nginx.profileKey mainConfig),
          ¬ object.value.isFinal) ∧
        (machine mainConfig).Along (nginxPass.Interleaves sidecarPass) system overlapRun ∧
        (machine mainConfig).Along (sidecarPass.Interleaves nginxPass) system overlapRun ∧
        (machine mainConfig).run system overlapRun = some last ∧
        nginxPass.HasReturned last ∧ sidecarPass.HasReturned last ∧
        nginxPass.Undisturbed mainConfig sidecarPass system overlapRun ∧
        sidecarPass.Overtaken mainConfig nginxPass system overlapRun := by
    refine ⟨_, _, rfl, ⟨rfl, by decide, by decide, by decide⟩,
      ⟨rfl, by decide, by decide, by decide⟩, by decide, by decide, by decide, rfl, ⟨_, rfl⟩,
      ⟨_, rfl⟩, ?_, List.replicate 2 (.advance 3 {}) ++ List.replicate 2 (.advance 4 {}),
      .advance 3 {}, .advance 3 {} :: List.replicate 6 (.advance 4 {}), _, rfl, rfl, by decide⟩
    unfold Collecting.Undisturbed
    decide
  have hreach : (machine mainConfig).Reachable system :=
    ⟨freshSystem, sidecarRun, initial_freshSystem, hbefore⟩
  have hpod : nginxPass.SamePod sidecarPass := ⟨rfl, rfl, by decide⟩
  exact ⟨system, last, hbefore, hrun,
    (overlapping_passes hreach hpod hready hotherReady hfinal hinterleaves hrun hreturned).1
      hapart,
    (overlapping_passes hreach hpod.symm hotherReady hready hfinal hsymm hrun
      hotherReturned).2.1 hovertaken⟩

/-- The batch of the sidecar is lost with the sidecar. -/
theorem sidecar_not_kept :
    ∃ system, (machine mainConfig).Reachable system ∧ nginxPass.SamePod sidecarPass ∧
      nginxPass.Ready system ∧ sidecarPass.Ready system ∧
      (∀ object ∈ system.world.profiles.get (nginx.profileKey mainConfig),
        ¬ object.value.isFinal) ∧
      ¬ PassesKept mainConfig nginxPass sidecarPass system := by
  refine ⟨_, ⟨freshSystem, sidecarRun, initial_freshSystem, rfl⟩,
    ⟨rfl, rfl, by decide⟩, ⟨rfl, by decide, by decide, by decide⟩,
    ⟨rfl, by decide, by decide, by decide⟩, by decide, ?_⟩
  intro hkept
  have hlast := hkept overlapRun _ (by decide) rfl ⟨_, rfl⟩ ⟨_, rfl⟩
  exact absurd hlast.2.1.1 (by decide)

end Kapprofiler.Collector
