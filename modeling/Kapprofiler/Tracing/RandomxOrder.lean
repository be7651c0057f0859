import Kapprofiler.Tracing.Randomx

/-! # Samples out of order

The samples of a namespace come from several CPUs, and one may carry an earlier timestamp than
the one before it. The gap is an unsigned difference: such a sample looks as if it came far too
late, and the count begins again.
-/

namespace Kapprofiler.Tracing.Randomx

variable {convert : Conversions}

/-- While a namespace is counted, only its own samples change that. Its count begins again only
at a sample that is too long after the last one, and a sample that is earlier by at most the
bound is counted. -/
def CountsOn (convert : Conversions) (detector : Detector) (reading : Reading) : Prop :=
  ∀ next, detector.step convert reading = some next → ∀ mntnsId cache,
    detector.mntnsToEventCount.lookup mntnsId = some cache → cache.alerted = false →
    (reading.samplesOf mntnsId = [] → next.mntnsToEventCount.lookup mntnsId = some cache) ∧
      ∀ sample ∈ reading.samplesOf mntnsId, ∃ counted,
        next.mntnsToEventCount.lookup mntnsId = some counted ∧
        (counted.eventsCount = 1 → cache.timestamp.toNat + maxGap < sample.timestamp.toNat) ∧
        (sample.timestamp < cache.timestamp →
          cache.timestamp.toNat ≤ sample.timestamp.toNat + maxGap →
          counted.eventsCount = cache.eventsCount + 1)

/-- A sample of a namespace that is counted is not earlier than the one before it, unless by so
much that the unsigned difference is small again. -/
def NotEarlier (detector : Detector) (reading : Reading) : Prop :=
  ∀ sample ∈ reading.samples, ∀ cache ∈ detector.mntnsToEventCount.lookup sample.mntnsId,
    cache.alerted = false →
      cache.timestamp ≤ sample.timestamp ∨
        sample.timestamp.toNat + 2 ^ 64 ≤ cache.timestamp.toNat + maxGap

instance (detector : Detector) (reading : Reading) : Decidable (NotEarlier detector reading) :=
  inferInstanceAs (Decidable (∀ sample ∈ reading.samples, ∀ cache ∈ _, _))

/-! ## What every run keeps -/

/-- A namespace that is counted has a count, and one that is too low for an alert. -/
def Outcome.Low (outcome : Outcome) : Prop :=
  ∀ cache ∈ outcome.cache, cache.alerted = false →
    cache.eventsCount ≠ 0 ∧ ¬ targetRandomxEventsCount < cache.eventsCount

theorem countWith_ne_zero {cache : RandomxEventCache} (sample : RandomxEvent)
    (hlow : ¬ targetRandomxEventsCount < cache.eventsCount) : cache.countWith sample ≠ 0 := by
  rw [RandomxEventCache.countWith]
  split_ifs
  · decide
  · intro hzero
    have hsucc := toNat_succ_of_low hlow
    rw [hzero] at hsucc
    exact Nat.succ_ne_zero _ hsucc.symm

theorem Outcome.Low.observe {outcome : Outcome} (hlow : outcome.Low) (sample : RandomxEvent) :
    (outcome.observe convert sample).Low := by
  intro next hnext hcounting
  cases hcache : outcome.cache with
  | none =>
      rw [Outcome.observe, hcache] at hnext
      obtain rfl := Option.some.inj hnext
      exact ⟨(by decide : (1 : UInt64) ≠ 0), (by decide : ¬ targetRandomxEventsCount < 1)⟩
  | some cache =>
      cases halerted : cache.alerted with
      | true =>
          rw [Outcome.observe, hcache] at hnext
          simp only [halerted, if_true] at hnext
          exact hlow next hnext hcounting
      | false =>
          rw [Outcome.cache_observe hcache halerted] at hnext
          obtain rfl := Option.some.inj hnext
          exact ⟨countWith_ne_zero sample (hlow cache hcache halerted).2,
            of_decide_eq_false hcounting⟩

def Detector.Low (detector : Detector) : Prop := ∀ mntnsId, (detector.outcome mntnsId).Low

theorem Detector.Low.step {detector next : Detector} {reading : Reading} (hlow : detector.Low)
    (hstep : detector.step convert reading = some next) : next.Low := by
  intro mntnsId
  rw [outcome_step hstep]
  rcases reading.samplesOf_cases mntnsId with hnone | ⟨sample, hsample⟩
  · rw [hnone]
    exact hlow mntnsId
  · rw [hsample]
    exact (hlow mntnsId).observe sample

theorem low_started : Detector.started.Low := by
  intro mntnsId cache hcache
  cases hcache

/-! ## One reading -/

theorem lookup_step {detector next : Detector} {reading : Reading} {mntnsId : UInt64}
    {cache : RandomxEventCache} {sample : RandomxEvent}
    (hstep : detector.step convert reading = some next)
    (hcache : detector.mntnsToEventCount.lookup mntnsId = some cache)
    (hcounting : cache.alerted = false) (hsample : sample ∈ reading.samplesOf mntnsId) :
    next.mntnsToEventCount.lookup mntnsId =
      some ⟨sample.timestamp, cache.countWith sample,
        decide (targetRandomxEventsCount < cache.countWith sample)⟩ := by
  have hown : (detector.outcome mntnsId).cache = some cache := hcache
  have hnext : (next.outcome mntnsId).cache = next.mntnsToEventCount.lookup mntnsId := rfl
  rw [← hnext, outcome_step hstep, Reading.samplesOf_of_mem hsample, List.foldl_cons,
    List.foldl_nil, Outcome.cache_observe hown hcounting]

/-- A reading is counted as it should be exactly if it is no sample that is a little earlier. -/
theorem countsOn_iff {detector next : Detector} {reading : Reading} (hlow : detector.Low)
    (hstep : detector.step convert reading = some next) :
    CountsOn convert detector reading ↔ NotEarlier detector reading := by
  constructor
  · intro hcounts sample hsample cache hcache hcounting
    have hown : sample ∈ reading.samplesOf sample.mntnsId :=
      Reading.mem_samplesOf.mpr ⟨hsample, rfl⟩
    obtain ⟨counted, hcounted, hreset, _⟩ :=
      (hcounts next hstep sample.mntnsId cache hcache hcounting).2 sample hown
    obtain rfl := Option.some.inj ((lookup_step hstep hcache hcounting hown).symm.trans hcounted)
    -- A sample that is a little earlier looks too late, and the count is 1 again.
    by_contra hearlier
    rw [not_or, UInt64.le_iff_toNat_le, not_le, not_le] at hearlier
    have htooLong := (tooLongAgo_iff sample.timestamp cache.timestamp).mpr (.inr hearlier)
    have hlate := hreset (if_pos htooLong)
    omega
  · intro hnotEarlier next' hstep' mntnsId cache hcache hcounting
    obtain rfl := Option.some.inj (hstep.symm.trans hstep')
    constructor
    · intro hnone
      have hsame := outcome_step hstep mntnsId
      rw [hnone, List.foldl_nil] at hsame
      exact (congrArg Outcome.cache hsame).trans hcache
    · intro sample hsample
      have hlate : tooLongAgo sample.timestamp cache.timestamp = true →
          cache.timestamp.toNat + maxGap < sample.timestamp.toNat := by
        intro htooLong
        obtain ⟨hread, rfl⟩ := Reading.mem_samplesOf.mp hsample
        have horder := hnotEarlier sample hread cache hcache hcounting
        rw [UInt64.le_iff_toNat_le] at horder
        have hcases := (tooLongAgo_iff sample.timestamp cache.timestamp).mp htooLong
        omega
      refine ⟨_, lookup_step hstep hcache hcounting hsample, ?_, ?_⟩
      · intro hreset
        by_contra hnotLate
        have hcounted : cache.countWith sample = cache.eventsCount + 1 :=
          if_neg fun htooLong => hnotLate (hlate htooLong)
        have hcount := hlow mntnsId cache hcache hcounting
        have hsucc := toNat_succ_of_low hcount.2
        rw [← hcounted] at hsucc
        have hone : (cache.countWith sample).toNat = 1 := congrArg UInt64.toNat hreset
        exact hcount.1 (UInt64.toNat_inj.mp (show cache.eventsCount.toNat = 0 by omega))
      · intro hearlier _
        rw [UInt64.lt_iff_toNat_lt] at hearlier
        exact if_neg fun htooLong => absurd (hlate htooLong) (by omega)

/-! ## Along the runs of the detector -/

/-- In every run all readings are counted as they should be if and only if no sample of a
namespace that is counted is a little earlier than the one before it. -/
theorem countsOn_along_iff (readings : List Reading) (last : Detector)
    (hrun : (detectorMachine convert).run .started readings = some last) :
    (detectorMachine convert).Along (CountsOn convert) .started readings ↔
      (detectorMachine convert).Along NotEarlier .started readings :=
  (detectorMachine convert).along_congr_of_run
    (fun _ _ _ hlow hstep => @Detector.Low.step convert _ _ _ hlow hstep)
    (fun _ _ _ hlow hstep => @countsOn_iff convert _ _ _ hlow hstep) low_started hrun

/-- A sample that is much later begins the count again, as it should. -/
theorem late_sample_countsOn :
    (detectorMachine hostConversions).Along (CountsOn hostConversions) .started
      [.record ⟨0, some (xmrigSample 4026532201 10000000000)⟩,
        .record ⟨0, some (xmrigSample 4026532201 20000000000)⟩] :=
  (countsOn_along_iff _ _ rfl).mpr (by decide)

/-- A sample that is one nanosecond earlier begins the count again. -/
theorem earlier_sample_resets :
    ∃ state next,
      (detectorMachine hostConversions).run .started
        [.record ⟨0, some (xmrigSample 4026532201 10000000000)⟩] = some state ∧
      (detectorMachine hostConversions).step state
        (.record ⟨0, some (xmrigSample 4026532201 9999999999)⟩) = some next ∧
      next.mntnsToEventCount.lookup 4026532201 = some ⟨9999999999, 1, false⟩ ∧
      ¬ CountsOn hostConversions state
        (.record ⟨0, some (xmrigSample 4026532201 9999999999)⟩) := by
  refine ⟨_, _, rfl, rfl, rfl, ?_⟩
  intro hcounts
  obtain ⟨counted, hcounted, hreset, _⟩ :=
    (hcounts _ rfl 4026532201 ⟨10000000000, 1, false⟩ rfl rfl).2 _ (List.mem_singleton.mpr rfl)
  have hone : (⟨9999999999, 1, false⟩ : RandomxEventCache) = counted := Option.some.inj hcounted
  exact absurd (hreset (hone ▸ rfl)) (by decide)

end Kapprofiler.Tracing.Randomx
