import Kapprofiler.Collector.Stopping

/-! # How many collections a container has

A start arms a timer for its container, a stop launches a pass at once, and a pass arms the
timer again at its end. None of them looks for a timer that is pending already, so a container
may be collected by several loops side by side. There are never more of them than starts and
stops were made, and without the container they end.
-/

namespace Kapprofiler.Collector

open Foundation

variable {config : CollectorManagerConfig} {id : ContainerId}

/-- The start may still arm the timer. -/
def StartState.mayArm : StartState → Bool
  | .checkProfile | .track | .fetchMounts | .startTrace | .startTimer => true
  | .markRecording | .setRecording | .returned => false

/-- The pass may still restart the timer. -/
def PassState.mayArm : PassState → Bool
  | .lookup | .load .. | .get .. | .create .. | .limitPatch .. | .update .. | .restartTimer _ =>
      true
  | .removeFilter _ | .stopTrace _ | .markNotRecording _ | .untrack _ | .failedPatch
  | .returned _ => false

/-- The call may still arm a timer of the container. -/
def Call.mayArm (id : ContainerId) : Call → Bool
  | .containerStarted other _ state => other = id ∧ state.mayArm = true
  | .collectContainerEvents other state => other = id ∧ state.mayArm = true
  | _ => false

/-- The call is a pass that has not looked its container up. -/
def Call.atLookup : Call → Bool
  | .collectContainerEvents _ .lookup => true
  | _ => false

/-- The call may still arm a timer of the container, and does not depend on a lookup for
that. -/
def Call.armsUntracked (id : ContainerId) (call : Call) : Bool :=
  call.mayArm id && !call.atLookup

/-- The collections of the container: its pending timers, and the calls that may still arm
one. -/
def loops (id : ContainerId) (system : System) : Nat :=
  system.world.timers.count id + system.calls.countP (Call.mayArm id)

/-- The start of the container may still track it. -/
def Call.mayTrack (id : ContainerId) : Call → Prop
  | .containerStarted other _ state => other = id ∧ (state = .checkProfile ∨ state = .track)
  | _ => False

instance (id : ContainerId) : DecidablePred (Call.mayTrack id)
  | .containerStarted other _ state =>
      inferInstanceAs (Decidable (other = id ∧ (state = .checkProfile ∨ state = .track)))
  | .collectContainerEvents .. | .finalizeProfile .. | .deleteProfile .. =>
      inferInstanceAs (Decidable False)

def Label.launches (id : ContainerId) : Label → Bool
  | .containerStarted other _ => other = id
  | .containerStopped other => other = id
  | _ => false

def Label.expires (id : ContainerId) : Label → Bool
  | .timerExpired other => other = id
  | _ => false

/-! ## One call -/

theorem startStep_arms {attach : Bool} {answers : Answers} {world : World}
    {other : ContainerId} {state : StartState} {next : StartState × World}
    (hstep : startStep config other attach answers world state = some next) :
    (next.2.timers = world.timers ∧ (next.1.mayArm = true → state.mayArm = true)) ∨
      (next.2.timers = other ::ₘ world.timers ∧ state.mayArm = true ∧ next.1.mayArm = false) := by
  cases startStep_change hstep with
  | timer | lastTimer => exact Or.inr ⟨rfl, rfl, rfl⟩
  | recorded | podMissing | finalizationTimer | noFinalizationTimer | record =>
      exact Or.inl ⟨rfl, fun hlater => absurd hlater Bool.false_ne_true⟩
  | _ => exact Or.inl ⟨rfl, fun _ => rfl⟩

theorem collectStep_mayArm {answers : Answers} {world : World} {other : ContainerId}
    {state : PassState} (hlater : (collectStep config other answers world state).1.mayArm = true) :
    state.mayArm = true := by
  cases state with
  | untrack exit =>
      simp only [collectStep] at hlater
      split at hlater <;> cases hlater
  | failedPatch =>
      simp only [collectStep] at hlater
      split at hlater <;> cases hlater
  | removeFilter exit => cases hlater
  | stopTrace exit => cases hlater
  | markNotRecording exit => cases hlater
  | returned exit => cases hlater
  | _ => rfl

/-- A step of a call arms a timer at the price of not doing so again. -/
theorem Call.step_arms (id : ContainerId) {call next : Call} {answers : Answers}
    {world after : World} (hstep : call.step config answers world = some (next, after)) :
    (after.timers = world.timers ∧ (next.mayArm id = true → call.mayArm id = true)) ∨
      ∃ other, after.timers = other ::ₘ world.timers ∧
        (call.mayArm id = true ↔ other = id) ∧ next.mayArm id = false := by
  rcases Call.step_cases hstep with
    ⟨other, attach, state, started, rfl, hstarted, rfl, rfl⟩ | ⟨other, state, rfl, _, rfl, rfl⟩ |
    ⟨nameSpace, podName, rfl, rfl, rfl⟩ | ⟨nameSpace, podName, rfl, rfl, rfl⟩
  · rcases startStep_arms hstarted with ⟨htimers, hlater⟩ | ⟨htimers, hnow, hlater⟩
    · refine Or.inl ⟨htimers, ?_⟩
      simp only [mayArm, decide_eq_true_eq]
      exact fun ⟨hid, harm⟩ => ⟨hid, hlater harm⟩
    · refine Or.inr ⟨other, htimers, ?_, ?_⟩
      · simp [mayArm, hnow]
      · simp [mayArm, hlater]
  · rcases (collectStep_tracks config other answers world state).2 with
      htimers | ⟨exit, rfl, htimers⟩
    · refine Or.inl ⟨htimers, ?_⟩
      simp only [mayArm, decide_eq_true_eq]
      exact fun ⟨hid, harm⟩ => ⟨hid, collectStep_mayArm harm⟩
    · refine Or.inr ⟨other, htimers, ?_, ?_⟩
      · simp [mayArm, PassState.mayArm]
      · simp [mayArm, collectStep, PassState.mayArm]
  · obtain ⟨profiles, heq⟩ := finalizeProfile_eq config answers world nameSpace podName
    rw [heq]
    exact Or.inl ⟨rfl, fun hlater => absurd hlater Bool.false_ne_true⟩
  · obtain ⟨profiles, heq⟩ := deleteProfile_eq config answers world nameSpace podName
    rw [heq]
    exact Or.inl ⟨rfl, fun hlater => absurd hlater Bool.false_ne_true⟩

/-- A pass that finds its container untracked returns. -/
theorem Call.step_lookup_untracked {call next : Call} {answers : Answers} {world after : World}
    (hstep : call.step config answers world = some (next, after))
    (huntracked : id ∉ world.containers) (harms : call.mayArm id = true)
    (hlookup : call.atLookup = true) :
    after = world ∧ next.mayArm id = false := by
  cases call with
  | collectContainerEvents other state =>
      cases state with
      | lookup =>
          obtain rfl : other = id := by simpa [mayArm, PassState.mayArm] using harms
          simp only [step, collectStep, Finmap.lookup_eq_none.mpr huntracked] at hstep
          cases hstep
          exact ⟨rfl, by simp [mayArm, PassState.mayArm]⟩
      | _ => cases hlookup
  | _ => cases hlookup

/-! ## The collections of a container -/

/-- A call that is replaced is no longer counted, and the new one is. -/
theorem countP_set_add (counts : Call → Bool) {calls : List Call} {index : Nat} {old : Call}
    (hold : calls[index]? = some old) (new : Call) :
    (calls.set index new).countP counts + (if counts old then 1 else 0) =
      calls.countP counts + (if counts new then 1 else 0) := by
  obtain ⟨hbound, rfl⟩ := List.getElem?_eq_some_iff.mp hold
  have hcounted := List.boole_getElem_le_countP (p := counts) hbound
  rw [List.countP_set hbound]
  omega

/-- Where each timer armed costs the call its count, timers and calls together do not grow. -/
theorem count_advance {counts : Call → Bool} {calls : List Call} {index : Nat}
    {current after : Call} {timers later : Multiset ContainerId}
    (hcurrent : calls[index]? = some current)
    (harms : (later = timers ∧ (counts after = true → counts current = true)) ∨
      ∃ other, later = other ::ₘ timers ∧ (counts current = true ↔ other = id) ∧
        counts after = false) :
    later.count id + (calls.set index after).countP counts ≤
      timers.count id + calls.countP counts := by
  have hcount := countP_set_add counts hcurrent after
  rcases harms with ⟨rfl, hlater⟩ | ⟨other, rfl, hnow, hlater⟩
  · have hweight : (if counts after = true then 1 else 0) ≤
        (if counts current = true then 1 else 0) := by
      split
      next hafter => rw [if_pos (hlater hafter)]
      next => exact Nat.zero_le _
    omega
  · have hweight : (if counts current = true then 1 else 0) = (if id = other then 1 else 0) :=
      if_congr (hnow.trans eq_comm) rfl rfl
    rw [hlater, hweight, if_neg Bool.false_ne_true] at hcount
    rw [Multiset.count_cons]
    omega

theorem countP_launched (id : ContainerId) {world next : World} {label : Label}
    {launched : List Call} (hchange : LabelChange config world label next launched) :
    next.timers.count id + launched.countP (Call.mayArm id) ≤
      world.timers.count id + if label.launches id then 1 else 0 := by
  cases hchange with
  | started other attach => simp [Label.launches, Call.mayArm, StartState.mayArm]
  | stopped other =>
      rw [(containerStopped_untracks world other).2.1]
      simp [Label.launches, Call.mayArm, PassState.mayArm]
  | expired other htimer =>
      have hcount := Multiset.count_pos.mpr htimer
      by_cases hother : other = id
      · subst hother
        simp only [Multiset.count_erase_self, List.countP_singleton, Call.mayArm,
          PassState.mayArm, Label.launches]
        simp
        omega
      · simp [Multiset.count_erase_of_ne (Ne.symm hother), Label.launches, Call.mayArm, hother]
  | sink => simp
  | finalizer finalizer hlaunched =>
      have hnone : launched.countP (Call.mayArm id) = 0 := by
        rw [List.countP_eq_zero]
        intro call hcall
        have hcontainer := hlaunched call hcall
        cases call with
        | containerStarted => cases hcontainer
        | collectContainerEvents => cases hcontainer
        | finalizeProfile => simp [Call.mayArm]
        | deleteProfile => simp [Call.mayArm]
      rw [hnone]
      exact Nat.le_add_right _ _

/-- A step adds a collection only if it starts or stops the container. -/
theorem step_loops {system next : System} {label : Label}
    (hstep : step config system label = some next) :
    loops id next ≤ loops id system + if label.launches id then 1 else 0 := by
  unfold loops
  rcases step_cases hstep with
    ⟨call, answers, current, after, rfl, hcurrent, hcall, hcalls⟩ | ⟨launched, hchange, hcalls⟩
  · rw [hcalls]
    exact Nat.le_add_right_of_le (count_advance hcurrent (Call.step_arms id hcall))
  · have hlaunched := countP_launched id hchange
    rw [hcalls, List.countP_append]
    omega

/-- In every run the pending timers of a container, and the starts and passes that may still
arm one, are no more than the starts and stops of the container that were made. -/
theorem loops_le_launches {start last : System} {labels : List Label} (hstart : Initial start)
    (hrun : (machine config).run start labels = some last) (id : ContainerId) :
    loops id last ≤ labels.countP (Label.launches id) := by
  obtain ⟨_, _, htimers, _, hcalls⟩ := hstart
  have hnone : loops id start = 0 := by
    unfold loops
    rw [htimers, hcalls]
    rfl
  have hpreserve : ∀ system label next, True → True →
      (machine config).step system label = some next → True ∧
        loops id next + (if false then 1 else 0) ≤
          loops id system + (if label.launches id then 1 else 0) :=
    fun _ _ _ _ _ hstep => ⟨trivial, step_loops hstep⟩
  have hloops := ((machine config).run_purse (loops id) (fun _ => false) (Label.launches id)
    hpreserve trivial (fun _ _ => trivial) hrun).2
  omega

/-- The container is reported twice, and both reports are taken for starts. -/
def twiceStartedRun : List Label :=
  .containerStarted nginx false :: List.replicate 7 (.advance 0 {}) ++
    .containerStarted nginx true :: List.replicate 6 (.advance 1 {})

theorem nginx_loops : ∃ last, (machine mainConfig).run freshSystem twiceStartedRun = some last ∧
    loops nginx last = 2 ∧ loops nginx last ≤ twiceStartedRun.countP (Label.launches nginx) := by
  obtain ⟨last, hrun, hloops⟩ : ∃ last,
      (machine mainConfig).run freshSystem twiceStartedRun = some last ∧ loops nginx last = 2 :=
    ⟨_, rfl, by decide⟩
  exact ⟨last, hrun, hloops, loops_le_launches initial_freshSystem hrun nginx⟩

/-! ## A container that is not tracked -/

/-- The container is untracked, and no start is about to track it. -/
structure Gone (id : ContainerId) (system : System) : Prop where
  untracked : id ∉ system.world.containers
  noStart : ∀ call ∈ system.calls, ¬ call.mayTrack id

/-- What can still expire: the pending timers, and those that calls arm without a lookup. -/
def remaining (id : ContainerId) (system : System) : Nat :=
  system.world.timers.count id + system.calls.countP (Call.armsUntracked id)

theorem remaining_le_loops (id : ContainerId) (system : System) :
    remaining id system ≤ loops id system := by
  apply Nat.add_le_add_left
  apply List.countP_mono_left
  intro call _ harms
  exact (Bool.and_eq_true_iff.mp harms).1

/-- Without a lookup that finds the container, a call arms its timer only if it was bound
to. -/
theorem Call.step_armsUntracked {call next : Call} {answers : Answers} {world after : World}
    (hstep : call.step config answers world = some (next, after))
    (huntracked : id ∉ world.containers) :
    (after.timers = world.timers ∧
        (next.armsUntracked id = true → call.armsUntracked id = true)) ∨
      ∃ other, after.timers = other ::ₘ world.timers ∧
        (call.armsUntracked id = true ↔ other = id) ∧ next.armsUntracked id = false := by
  have hfalse : ∀ call : Call, call.mayArm id = false → call.armsUntracked id = false := by
    intro call hmay
    rw [armsUntracked, hmay, Bool.false_and]
  by_cases hlookup : call.mayArm id = true ∧ call.atLookup = true
  · obtain ⟨rfl, hnext⟩ := step_lookup_untracked hstep huntracked hlookup.1 hlookup.2
    exact Or.inl ⟨rfl, fun harms => absurd (hfalse next hnext) (by rw [harms]; decide)⟩
  · have hsame : call.armsUntracked id = call.mayArm id := by
      unfold armsUntracked
      cases hmay : call.mayArm id with
      | true =>
          have hfound : call.atLookup = false := by simpa [hmay] using hlookup
          rw [hfound]
          rfl
      | false => rfl
    rw [hsame]
    rcases step_arms id hstep with ⟨htimers, hlater⟩ | ⟨other, htimers, hnow, hlater⟩
    · exact Or.inl ⟨htimers, fun harms => hlater (Bool.and_eq_true_iff.mp harms).1⟩
    · exact Or.inr ⟨other, htimers, hnow, hfalse next hlater⟩

/-- Only a start that is about to track the container tracks it. -/
theorem Call.step_gone {call next : Call} {answers : Answers} {world after : World}
    (hstep : call.step config answers world = some (next, after))
    (htrack : ¬ call.mayTrack id) (huntracked : id ∉ world.containers) :
    id ∉ after.containers ∧ ¬ next.mayTrack id := by
  rcases Call.step_cases hstep with
    ⟨other, attach, state, started, rfl, hstarted, rfl, rfl⟩ | ⟨other, state, rfl, _, rfl, rfl⟩ |
    ⟨nameSpace, podName, rfl, rfl, rfl⟩ | ⟨nameSpace, podName, rfl, rfl, rfl⟩
  · cases startStep_change hstarted with
    | notRecorded => exact ⟨huntracked, fun hnext => htrack ⟨hnext.1, Or.inl rfl⟩⟩
    | track =>
        refine ⟨?_, fun hnext => htrack ⟨hnext.1, Or.inr rfl⟩⟩
        intro hmem
        rcases Finmap.mem_insert.mp hmem with rfl | hold
        · exact htrack ⟨rfl, Or.inr rfl⟩
        · exact huntracked hold
    | _ => exact ⟨huntracked, by simp [mayTrack]⟩
  · refine ⟨?_, fun hnext => hnext⟩
    rcases (collectStep_tracks config other answers world state).1 with heq | ⟨_, heq⟩
    · rwa [heq]
    · rw [heq]
      exact fun hmem => huntracked (Finmap.mem_erase.mp hmem).2
  · obtain ⟨profiles, heq⟩ := finalizeProfile_eq config answers world nameSpace podName
    rw [heq]
    exact ⟨huntracked, fun hnext => hnext⟩
  · obtain ⟨profiles, heq⟩ := deleteProfile_eq config answers world nameSpace podName
    rw [heq]
    exact ⟨huntracked, fun hnext => hnext⟩

/-- A label that does not start the container launches nothing that tracks it, or that is
bound to arm its timer. -/
theorem LabelChange.gone {world next : World} {label : Label} {launched : List Call}
    (hchange : LabelChange config world label next launched)
    (hlabel : ∀ attach, label ≠ .containerStarted id attach) (huntracked : id ∉ world.containers) :
    id ∉ next.containers ∧ next.timers.count id ≤ world.timers.count id ∧
      ∀ call ∈ launched, ¬ call.mayTrack id ∧ call.armsUntracked id = false := by
  cases hchange with
  | started other attach =>
      refine ⟨huntracked, le_rfl, ?_⟩
      have hother : other ≠ id := fun heq => hlabel attach (by rw [heq])
      simp [Call.mayTrack, Call.armsUntracked, Call.mayArm, hother]
  | stopped other =>
      obtain ⟨hcontainers, htimers, _⟩ := containerStopped_untracks world other
      rw [hcontainers, htimers]
      refine ⟨fun hmem => huntracked (Finmap.mem_erase.mp hmem).2, le_rfl, ?_⟩
      simp [Call.mayTrack, Call.armsUntracked, Call.atLookup]
  | expired other htimer =>
      refine ⟨huntracked, Multiset.count_le_of_le _ (Multiset.erase_le _ _), ?_⟩
      simp [Call.mayTrack, Call.armsUntracked, Call.atLookup]
  | sink => exact ⟨huntracked, le_rfl, by simp⟩
  | finalizer finalizer hlaunched =>
      refine ⟨huntracked, le_rfl, ?_⟩
      intro call hcall
      have hcontainer := hlaunched call hcall
      cases call with
      | containerStarted => cases hcontainer
      | collectContainerEvents => cases hcontainer
      | finalizeProfile => exact ⟨fun htrack => htrack, rfl⟩
      | deleteProfile => exact ⟨fun htrack => htrack, rfl⟩

theorem step_expired {system next : System} {label : Label}
    (hstep : step config system label = some next) (hexpires : label.expires id = true) :
    next.world.timers.count id + 1 = system.world.timers.count id := by
  cases label with
  | timerExpired other =>
      obtain rfl : other = id := by simpa [Label.expires] using hexpires
      simp only [step] at hstep
      split at hstep
      next htimer =>
        cases hstep
        have hcount := Multiset.count_pos.mpr htimer
        simp only [System.launch, Multiset.count_erase_self]
        omega
      next => cases hstep
  | _ => cases hexpires

/-- Every expiry uses up one of the timers that remain. -/
theorem Gone.step {system next : System} {label : Label} (hgone : Gone id system)
    (hlabel : ∀ attach, label ≠ .containerStarted id attach)
    (hstep : step config system label = some next) : Gone id next ∧
      remaining id next + (if label.expires id then 1 else 0) ≤ remaining id system := by
  unfold remaining
  rcases step_cases hstep with
    ⟨call, answers, current, after, rfl, hcurrent, hcall, hcalls⟩ | ⟨launched, hchange, hcalls⟩
  · obtain ⟨huntracked, htrack⟩ := Call.step_gone hcall
      (hgone.noStart current (List.mem_of_getElem? hcurrent)) hgone.untracked
    refine ⟨⟨huntracked, ?_⟩, ?_⟩
    · intro other hother
      rw [hcalls] at hother
      rcases List.mem_or_eq_of_mem_set hother with hold | rfl
      · exact hgone.noStart other hold
      · exact htrack
    · rw [hcalls]
      exact count_advance hcurrent (Call.step_armsUntracked hcall hgone.untracked)
  · obtain ⟨huntracked, htimers, hlaunched⟩ := hchange.gone hlabel hgone.untracked
    have hnone : launched.countP (Call.armsUntracked id) = 0 := by
      rw [List.countP_eq_zero]
      intro call hcall
      rw [(hlaunched call hcall).2]
      exact Bool.false_ne_true
    refine ⟨⟨huntracked, ?_⟩, ?_⟩
    · intro other hother
      rw [hcalls] at hother
      rcases List.mem_append.mp hother with hold | hnew
      · exact hgone.noStart other hold
      · exact (hlaunched other hnew).1
    · rw [hcalls, List.countP_append, hnone]
      split
      next hexpires =>
        -- The expiry takes one timer out of those that are pending.
        have hspent := step_expired hstep hexpires
        omega
      next => omega

/-- Once a container is untracked, and as long as it is not started again, no more of its
timers expire than it had collections, and it stays untracked. -/
theorem expirations_le_loops {system last : System} {labels : List Label} {id : ContainerId}
    (huntracked : id ∉ system.world.containers)
    (hstarts : ∀ call ∈ system.calls, ¬ call.mayTrack id)
    (hlabels : ∀ attach, .containerStarted id attach ∉ labels)
    (hrun : (machine config).run system labels = some last) :
    labels.countP (Label.expires id) ≤ loops id system ∧ id ∉ last.world.containers := by
  have hloops := remaining_le_loops id system
  have hpreserve : ∀ system label next, Gone id system →
      (∀ attach, label ≠ .containerStarted id attach) →
      (machine config).step system label = some next → Gone id next ∧
        remaining id next + (if label.expires id then 1 else 0) ≤
          remaining id system + (if false then 1 else 0) :=
    fun _ _ _ hgone hlabel hstep => hgone.step hlabel hstep
  obtain ⟨hgone, hspent⟩ := (machine config).run_purse (remaining id) (Label.expires id)
    (fun _ => false) hpreserve ⟨huntracked, hstarts⟩
    (fun label hmem attach heq => hlabels attach (heq ▸ hmem)) hrun
  have hnone : labels.countP (fun _ => false) = 0 := by simp
  exact ⟨by omega, hgone.untracked⟩

/-- The container that was reported twice is stopped; then both timers expire. -/
theorem nginx_expirations : ∃ system last,
    (machine mainConfig).run freshSystem (twiceStartedRun ++ [.containerStopped nginx]) =
      some system ∧
    (machine mainConfig).run system [.timerExpired nginx, .advance 3 {}, .timerExpired nginx] =
      some last ∧
    2 ≤ loops nginx system ∧ nginx ∉ last.world.containers := by
  obtain ⟨system, last, hstopped, hrun, huntracked, hstarts⟩ : ∃ system last,
      (machine mainConfig).run freshSystem (twiceStartedRun ++ [.containerStopped nginx]) =
        some system ∧
      (machine mainConfig).run system [.timerExpired nginx, .advance 3 {}, .timerExpired nginx] =
        some last ∧
      nginx ∉ system.world.containers ∧ ∀ call ∈ system.calls, ¬ call.mayTrack nginx :=
    ⟨_, _, rfl, rfl, by decide, by decide⟩
  obtain ⟨hexpired, hgone⟩ := expirations_le_loops huntracked hstarts (by simp) hrun
  exact ⟨system, last, hstopped, hrun, hexpired, hgone⟩

end Kapprofiler.Collector
