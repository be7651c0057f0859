import Kapprofiler.Foundation.TrailingRun
import Kapprofiler.Tracing.Randomx

/-! # When a mount namespace is reported

With timestamps that do not decrease within a namespace, its count is the length of the run of
close samples at the end of what was read of it. So the namespace is reported at the first
sample that ends a run of one more than `targetRandomxEventsCount`, and only there.
-/

namespace Kapprofiler.Tracing.Randomx

open Foundation

/-- The second sample is not too long after the first. -/
def WithinGap (first second : RandomxEvent) : Prop :=
  second.timestamp.toNat ≤ first.timestamp.toNat + maxGap

/-- The samples end with a run that is long enough for an alert. -/
def EndsAlarm (samples : List RandomxEvent) : Prop :=
  EndsRun WithinGap (targetRandomxEventsCount.toNat + 1) samples

/-- The sample is the first to end such a run. -/
def FirstAlarm (earlier : List RandomxEvent) (sample : RandomxEvent) : Prop :=
  EndsAlarm (earlier ++ [sample]) ∧ ∀ before, before <+: earlier → ¬ EndsAlarm before

/-- The callback was called for the sample if it is the first to end such a run, and was not
called otherwise. -/
def CalledExactly (convert : Conversions) (earlier : List RandomxEvent) (sample : RandomxEvent)
    (alerts next : List Event) : Prop :=
  FirstAlarm earlier sample ∧ next = alerts ++ [sample.event convert] ∨
    ¬ FirstAlarm earlier sample ∧ next = alerts

variable {convert : Conversions}

/-! ## One namespace -/

/-- What the detector keeps true of a namespace, relative to its samples so far. -/
inductive Follows (convert : Conversions) : List RandomxEvent → Outcome → Prop
  | unseen : Follows convert [] ⟨none, []⟩
  | counting {samples : List RandomxEvent} {last : RandomxEvent} {eventsCount : UInt64}
      (hlast : samples.getLast? = some last)
      (hcounts : CountsRun WithinGap samples eventsCount.toNat)
      (hquiet : ∀ before, before <+: samples → ¬ EndsAlarm before) :
      Follows convert samples ⟨some ⟨last.timestamp, eventsCount, false⟩, []⟩
  | alerted {samples before : List RandomxEvent} {sample : RandomxEvent}
      {cache : RandomxEventCache} (halerted : cache.alerted = true)
      (hbefore : before ++ [sample] <+: samples) (hfirst : FirstAlarm before sample) :
      Follows convert samples ⟨some cache, [sample.event convert]⟩

theorem endsAlarm_iff {samples : List RandomxEvent} {eventsCount : UInt64}
    (hcounts : CountsRun WithinGap samples eventsCount.toNat) :
    EndsAlarm samples ↔ targetRandomxEventsCount < eventsCount := by
  rw [UInt64.lt_iff_toNat_lt]
  exact hcounts _

theorem not_endsAlarm_nil : ¬ EndsAlarm [] := by
  rintro ⟨run, hrun, hlength, _⟩
  rw [List.suffix_nil.mp hrun] at hlength
  exact absurd hlength (by decide)

/-- A sample that leaves the count low is no occasion for a call. -/
theorem Follows.low {samples : List RandomxEvent} {sample : RandomxEvent} {eventsCount : UInt64}
    (hquiet : ∀ before, before <+: samples → ¬ EndsAlarm before)
    (hcounts : CountsRun WithinGap (samples ++ [sample]) eventsCount.toNat)
    (hlow : ¬ targetRandomxEventsCount < eventsCount) :
    Follows convert (samples ++ [sample]) ⟨some ⟨sample.timestamp, eventsCount, false⟩, []⟩ ∧
      CalledExactly convert samples sample [] [] := by
  have hnow : ¬ EndsAlarm (samples ++ [sample]) := by rwa [endsAlarm_iff hcounts]
  refine ⟨.counting (by simp) hcounts ?_, .inr ⟨fun hfirst => hnow hfirst.1, rfl⟩⟩
  intro before hbefore
  rcases List.prefix_concat_iff.mp hbefore with rfl | hearlier
  · exact hnow
  · exact hquiet before hearlier

/-- In order, the unsigned difference is the gap. -/
theorem tooLongAgo_of_le {last sample : RandomxEvent} (hle : last.timestamp ≤ sample.timestamp) :
    tooLongAgo sample.timestamp last.timestamp = true ↔ ¬ WithinGap last sample := by
  rw [tooLongAgo_iff, WithinGap, not_le]
  have hnat := UInt64.le_iff_toNat_le.mp hle
  omega

/-- One sample keeps what is known of its namespace and makes the call exactly if it is due. -/
theorem Follows.observe {samples : List RandomxEvent} {outcome : Outcome}
    {sample : RandomxEvent} (hfollows : Follows convert samples outcome)
    (hordered : ∀ last ∈ samples.getLast?, last.timestamp ≤ sample.timestamp) :
    Follows convert (samples ++ [sample]) (outcome.observe convert sample) ∧
      CalledExactly convert samples sample outcome.alerts
        (outcome.observe convert sample).alerts := by
  cases hfollows with
  | unseen =>
      have hcounts : CountsRun WithinGap ([] ++ [sample]) (1 : UInt64).toNat :=
        countsRun_singleton sample
      refine Follows.low ?_ hcounts (by decide)
      intro before hbefore
      rw [List.prefix_nil.mp hbefore]
      exact not_endsAlarm_nil
  | @counting _ last eventsCount hlast hcounts hquiet =>
      -- No earlier sample was an alarm, so the count is low and one more does not wrap around.
      have hlow : ¬ targetRandomxEventsCount < eventsCount := by
        rw [← endsAlarm_iff hcounts]
        exact hquiet samples (List.prefix_refl samples)
      have hlate := tooLongAgo_of_le (hordered last hlast)
      by_cases htooLong : tooLongAgo sample.timestamp last.timestamp = true
      · have hrestarts : CountsRun WithinGap (samples ++ [sample]) (1 : UInt64).toNat :=
          CountsRun.restart hlast (hlate.mp htooLong)
        simp only [Outcome.observe, htooLong, Bool.false_eq_true, if_true, if_false]
        exact Follows.low hquiet hrestarts (by decide)
      · have hcontinues : CountsRun WithinGap (samples ++ [sample]) (eventsCount + 1).toNat := by
          rw [toNat_succ_of_low hlow]
          exact hcounts.continue hlast (not_not.mp fun hnot => htooLong (hlate.mpr hnot))
        simp only [Outcome.observe, htooLong, Bool.false_eq_true, if_false]
        by_cases henough : targetRandomxEventsCount < eventsCount + 1
        · have hfirst : FirstAlarm samples sample :=
            ⟨(endsAlarm_iff hcontinues).mpr henough, hquiet⟩
          rw [if_pos henough]
          exact ⟨.alerted rfl (List.prefix_refl _) hfirst, .inl ⟨hfirst, rfl⟩⟩
        · rw [if_neg henough]
          exact Follows.low hquiet hcontinues henough
  | alerted halerted hbefore hfirst =>
      simp only [Outcome.observe, halerted, if_true]
      refine ⟨.alerted halerted (hbefore.trans (List.prefix_append _ _)) hfirst, .inr ⟨?_, rfl⟩⟩
      exact fun hagain => hagain.2 _ hbefore hfirst.1

/-- The timestamps do not decrease. -/
def InOrder (samples : List RandomxEvent) : Prop :=
  samples.Pairwise fun first second => first.timestamp ≤ second.timestamp

instance : DecidablePred InOrder :=
  fun samples => inferInstanceAs (Decidable (samples.Pairwise _))

theorem InOrder.last_le {samples : List RandomxEvent} {sample : RandomxEvent}
    (hordered : InOrder (samples ++ [sample])) :
    ∀ last ∈ samples.getLast?, last.timestamp ≤ sample.timestamp := by
  intro last hlast
  exact (List.pairwise_append.mp hordered).2.2 last (List.mem_of_getLast? hlast) sample
    List.mem_cons_self

theorem follows_foldl {samples : List RandomxEvent} (hordered : InOrder samples) :
    Follows convert samples (samples.foldl (Outcome.observe convert) ⟨none, []⟩) := by
  induction samples using List.reverseRecOn with
  | nil => exact .unseen
  | append_singleton samples sample ih =>
      rw [List.foldl_append]
      have hbefore : InOrder samples := hordered.sublist (List.sublist_append_left _ _)
      exact ((ih hbefore).observe hordered.last_le).1

theorem Follows.once {samples : List RandomxEvent} {outcome : Outcome}
    (hfollows : Follows convert samples outcome) : outcome.alerts.length ≤ 1 := by
  cases hfollows with
  | unseen | counting => exact Nat.zero_le 1
  | alerted => exact Nat.le_refl 1

theorem Follows.never {samples : List RandomxEvent} {outcome : Outcome}
    (hfollows : Follows convert samples outcome)
    (hquiet : ∀ before, before <+: samples → ¬ EndsAlarm before) : outcome.alerts = [] := by
  cases hfollows with
  | unseen | counting => rfl
  | alerted _ hbefore hfirst => exact absurd hfirst.1 (hquiet _ hbefore)

/-! ## The runs of the detector -/

/-- The detector is exact for a namespace in a run. -/
structure ExactFor (convert : Conversions) (mntnsId : UInt64) (readings : List Reading)
    (last : Detector) : Prop where
  once : (last.alertsFor mntnsId).length ≤ 1
  exactly : ∀ before reading state next, before ++ [reading] <+: readings →
    (detectorMachine convert).run .started before = some state →
    (detectorMachine convert).step state reading = some next →
    ∀ sample ∈ reading.samplesOf mntnsId, CalledExactly convert (samplesOf mntnsId before) sample
      (state.alertsFor mntnsId) (next.alertsFor mntnsId)
  elsewhere : ∀ reading state next, (detectorMachine convert).step state reading = some next →
    reading.samplesOf mntnsId = [] → next.outcome mntnsId = state.outcome mntnsId
  never : (∀ before, before <+: samplesOf mntnsId readings → ¬ EndsAlarm before) →
    last.alertsFor mntnsId = []
  own : ∀ others other, (detectorMachine convert).run .started others = some other →
    samplesOf mntnsId others = samplesOf mntnsId readings →
    other.outcome mntnsId = last.outcome mntnsId

theorem samplesOf_concat (mntnsId : UInt64) (readings : List Reading) (reading : Reading) :
    samplesOf mntnsId (readings ++ [reading]) =
      samplesOf mntnsId readings ++ reading.samplesOf mntnsId := by
  rw [samplesOf, List.flatMap_append, List.flatMap_singleton, ← samplesOf]

theorem prefix_samplesOf {mntnsId : UInt64} {first second : List Reading}
    (hearlier : first <+: second) : samplesOf mntnsId first <+: samplesOf mntnsId second := by
  obtain ⟨rest, rfl⟩ := hearlier
  rw [samplesOf, samplesOf, List.flatMap_append]
  exact List.prefix_append _ _

theorem follows_of_run {readings : List Reading} {last : Detector} {mntnsId : UInt64}
    (hordered : InOrder (samplesOf mntnsId readings))
    (hrun : (detectorMachine convert).run .started readings = some last) :
    Follows convert (samplesOf mntnsId readings) (last.outcome mntnsId) := by
  rw [outcome_of_run hrun]
  exact follows_foldl hordered

/-- For a namespace whose own timestamps do not decrease, whatever else is read in between,
the callback is called once, at the first sample that ends a long enough run. -/
theorem detector_exact (mntnsId : UInt64) (readings : List Reading) (last : Detector)
    (hordered : InOrder (samplesOf mntnsId readings))
    (hrun : (detectorMachine convert).run .started readings = some last) :
    ExactFor convert mntnsId readings last where
  once := (follows_of_run hordered hrun).once
  exactly := by
    intro before reading state next hearlier hbefore hstep sample hsample
    have hsingle := Reading.samplesOf_of_mem hsample
    have hnow : InOrder (samplesOf mntnsId before ++ [sample]) := by
      rw [← hsingle, ← samplesOf_concat]
      exact hordered.sublist (prefix_samplesOf hearlier).sublist
    have hstate := follows_of_run (hnow.sublist (List.sublist_append_left _ _)) hbefore
    have hnext : next.outcome mntnsId = (state.outcome mntnsId).observe convert sample := by
      rw [outcome_step hstep, hsingle, List.foldl_cons, List.foldl_nil]
    have hcalled := (hstate.observe hnow.last_le).2
    rw [← hnext] at hcalled
    exact hcalled
  elsewhere := by
    intro reading state next hstep hnothing
    rw [outcome_step hstep, hnothing, List.foldl_nil]
  never := (follows_of_run hordered hrun).never
  own := by
    intro others other hother hsame
    rw [outcome_of_run hother, hsame, outcome_of_run hrun]

/-- A miner's samples, one a second, between lost ones and after one of another namespace. -/
def mining : List Reading :=
  .record ⟨0, some (xmrigSample 4026532202 2000000000)⟩ ::
    (List.range 51).flatMap fun second =>
      [.record ⟨0, some (xmrigSample 4026532201 (1000000000 * (.ofNat second + 1)))⟩,
        .record ⟨3, none⟩]

theorem mining_exact :
    ∃ last, (detectorMachine hostConversions).run .started mining = some last ∧
      ExactFor hostConversions 4026532201 mining last ∧
      last.alertsFor 4026532201 =
        [(xmrigSample 4026532201 51000000000).event hostConversions] := by
  refine ⟨_, rfl, detector_exact _ _ _ (by decide +kernel) rfl, ?_⟩
  decide +kernel

end Kapprofiler.Tracing.Randomx
