import Mathlib.Data.Finmap
import Kapprofiler.Foundation.Machine

/-! # The randomx detector

The loop of `Tracer.run` of the randomx gadget: it counts the samples of each mount namespace
that follow each other closely and reports a namespace once, when there were enough of them.
For each namespace it is a fold over that namespace's own samples.
-/

namespace Kapprofiler.Tracing.Randomx

def targetRandomxEventsCount : UInt64 := 50

def maxSecondsBetweenEvents : UInt64 := 5

/-- What is kept of a mount namespace. -/
structure RandomxEventCache where
  timestamp : UInt64
  eventsCount : UInt64
  alerted : Bool
deriving DecidableEq

/-- A sample, as the kernel's program puts it into the perf buffer. -/
structure RandomxEvent where
  timestamp : UInt64
  mntnsId : UInt64
  pid : UInt32
  ppid : UInt32
  uid : UInt32
  gid : UInt32
  comm : Vector UInt8 16
deriving DecidableEq

inductive MessageType where
  | normal
  | err
  | warn
deriving DecidableEq

/-- An event for the callback; the defaults are Go's zero values. -/
structure Event where
  type : MessageType
  message : String := ""
  timestamp : Int64 := 0
  mountNsID : UInt64 := 0
  pid : UInt32 := 0
  ppid : UInt32 := 0
  uid : UInt32 := 0
  gid : UInt32 := 0
  comm : String := ""
deriving DecidableEq

/-- A record of the perf buffer. One without bytes is a record of lost samples. -/
structure Record where
  lostSamples : UInt64
  rawSample : Option RandomxEvent
deriving DecidableEq

/-- What `t.reader.Read()` returns. -/
inductive Reading where
  /-- The error that the reader is closed. -/
  | closed
  | failed (err : String)
  | record (record : Record)
deriving DecidableEq

/-- The conversions of the gadget library that the loop uses. -/
structure Conversions where
  wallTimeFromBootTime : UInt64 → Int64
  fromCString : List UInt8 → String

/-- The tracer's table of namespaces, the calls of its callback, the keys it has put into the
gadget's filter map with value 0, and whether the loop has returned. -/
structure Detector where
  mntnsToEventCount : Finmap fun _ : UInt64 => RandomxEventCache
  called : List Event
  filterPuts : List UInt64
  returned : Bool

variable (convert : Conversions)

def RandomxEvent.event (bpfEvent : RandomxEvent) : Event :=
  { type := .normal
    timestamp := convert.wallTimeFromBootTime bpfEvent.timestamp
    mountNsID := bpfEvent.mntnsId
    pid := bpfEvent.pid, ppid := bpfEvent.ppid, uid := bpfEvent.uid, gid := bpfEvent.gid
    comm := convert.fromCString bpfEvent.comm.toList }

/-- Whether the last event was too long ago. The difference is one of unsigned numbers. -/
def tooLongAgo (timestamp last : UInt64) : Bool :=
  maxSecondsBetweenEvents * 1000000000 < timestamp - last

namespace Detector

def started : Detector := ⟨∅, [], [], false⟩

def put (detector : Detector) (mntnsId : UInt64) (cache : RandomxEventCache) : Detector :=
  { detector with mntnsToEventCount := detector.mntnsToEventCount.insert mntnsId cache }

/-- The check for enough events, after the count was updated. -/
def check (detector : Detector) (bpfEvent : RandomxEvent) : Detector :=
  let cache := (detector.mntnsToEventCount.lookup bpfEvent.mntnsId).getD ⟨0, 0, false⟩
  if targetRandomxEventsCount < cache.eventsCount ∧ cache.alerted = false then
    { detector.put bpfEvent.mntnsId ⟨bpfEvent.timestamp, cache.eventsCount, true⟩ with
      called := detector.called ++ [bpfEvent.event convert]
      filterPuts := detector.filterPuts ++ [bpfEvent.mntnsId] }
  else detector

/-- What the loop does with a sample. -/
def observe (detector : Detector) (bpfEvent : RandomxEvent) : Detector :=
  match detector.mntnsToEventCount.lookup bpfEvent.mntnsId with
  | none =>
      (detector.put bpfEvent.mntnsId ⟨bpfEvent.timestamp, 1, false⟩).check convert bpfEvent
  | some cache =>
      if cache.alerted = false then
        if tooLongAgo bpfEvent.timestamp cache.timestamp then
          (detector.put bpfEvent.mntnsId ⟨bpfEvent.timestamp, 1, false⟩).check convert bpfEvent
        else
          (detector.put bpfEvent.mntnsId
            ⟨bpfEvent.timestamp, cache.eventsCount + 1, false⟩).check convert bpfEvent
      else detector

/-- One turn of the loop. A record that neither counts lost samples nor holds one panics. -/
def step (detector : Detector) (reading : Reading) : Option Detector :=
  if detector.returned then none
  else match reading with
    | .closed => some { detector with returned := true }
    | .failed err =>
        let msg := "Error reading perf ring buffer: " ++ err
        some { detector with
          called := detector.called ++ [{ type := .err, message := msg }], returned := true }
    | .record record =>
        if 0 < record.lostSamples then
          let msg := "lost " ++ toString record.lostSamples ++ " samples"
          some { detector with
            called := detector.called ++ [{ type := .warn, message := msg }] }
        else record.rawSample.map (detector.observe convert)

/-- What one turn of the loop can be. -/
inductive Stepped (convert : Conversions) (detector : Detector) : Reading → Detector → Prop
  | closed : Stepped convert detector .closed { detector with returned := true }
  | failed (err : String) : Stepped convert detector (.failed err)
      { detector with
        called := detector.called ++
          [{ type := .err, message := "Error reading perf ring buffer: " ++ err }]
        returned := true }
  | lost (record : Record) (hlost : 0 < record.lostSamples) :
      Stepped convert detector (.record record)
        { detector with
          called := detector.called ++
            [{ type := .warn, message := "lost " ++ toString record.lostSamples ++ " samples" }] }
  | sample (record : Record) (sample : RandomxEvent) (hlost : ¬ 0 < record.lostSamples)
      (hsample : record.rawSample = some sample) :
      Stepped convert detector (.record record) (detector.observe convert sample)

variable {convert} in
theorem step_cases {detector next : Detector} {reading : Reading}
    (hstep : detector.step convert reading = some next) :
    Stepped convert detector reading next := by
  unfold step at hstep
  split_ifs at hstep
  cases reading with
  | closed =>
      obtain rfl := Option.some.inj hstep
      exact .closed
  | failed err =>
      obtain rfl := Option.some.inj hstep
      exact .failed err
  | record record =>
      dsimp only at hstep
      split_ifs at hstep with hlost
      · obtain rfl := Option.some.inj hstep
        exact .lost record hlost
      · obtain ⟨sample, hsample, rfl⟩ := Option.map_eq_some_iff.mp hstep
        exact .sample record sample hlost hsample

end Detector

def detectorMachine : Foundation.Machine Detector Reading where
  init detector := detector = .started
  step := Detector.step convert

/-! ## One namespace -/

/-- The sample that a reading brings to the counts, if it is one. -/
def Reading.samples : Reading → List RandomxEvent
  | .closed | .failed _ => []
  | .record read => if 0 < read.lostSamples then [] else read.rawSample.toList

def Reading.samplesOf (mntnsId : UInt64) (reading : Reading) : List RandomxEvent :=
  reading.samples.filter fun sample => sample.mntnsId = mntnsId

theorem Reading.samplesOf_cases (reading : Reading) (mntnsId : UInt64) :
    reading.samplesOf mntnsId = [] ∨ ∃ sample, reading.samplesOf mntnsId = [sample] := by
  cases reading with
  | closed | failed _ => exact .inl rfl
  | record read =>
      obtain ⟨lostSamples, rawSample⟩ := read
      simp only [samplesOf, samples]
      split_ifs
      · exact .inl rfl
      · cases rawSample with
        | none => exact .inl rfl
        | some sample =>
            by_cases hown : sample.mntnsId = mntnsId
            · exact .inr ⟨sample, by simp [hown]⟩
            · exact .inl (by simp [hown])

theorem Reading.samplesOf_of_mem {reading : Reading} {mntnsId : UInt64} {sample : RandomxEvent}
    (hsample : sample ∈ reading.samplesOf mntnsId) : reading.samplesOf mntnsId = [sample] := by
  rcases reading.samplesOf_cases mntnsId with hnone | ⟨other, hother⟩
  · rw [hnone] at hsample
    cases hsample
  · rw [hother, List.mem_singleton] at hsample
    rw [hother, hsample]

theorem Reading.mem_samplesOf {reading : Reading} {mntnsId : UInt64} {sample : RandomxEvent} :
    sample ∈ reading.samplesOf mntnsId ↔
      sample ∈ reading.samples ∧ sample.mntnsId = mntnsId := by
  rw [samplesOf, List.mem_filter, decide_eq_true_iff]

/-- What a run has read of a namespace. -/
def samplesOf (mntnsId : UInt64) (readings : List Reading) : List RandomxEvent :=
  readings.flatMap (Reading.samplesOf mntnsId)

/-- The state of a namespace and the calls of the callback for it. -/
structure Outcome where
  cache : Option RandomxEventCache
  alerts : List Event
deriving DecidableEq

def Detector.alertsFor (detector : Detector) (mntnsId : UInt64) : List Event :=
  detector.called.filter fun event => event.type = .normal ∧ event.mountNsID = mntnsId

def Detector.outcome (detector : Detector) (mntnsId : UInt64) : Outcome :=
  ⟨detector.mntnsToEventCount.lookup mntnsId, detector.alertsFor mntnsId⟩

/-- The detector of a single namespace. -/
def Outcome.observe (outcome : Outcome) (sample : RandomxEvent) : Outcome :=
  match outcome.cache with
  | none => { outcome with cache := some ⟨sample.timestamp, 1, false⟩ }
  | some cache =>
      if cache.alerted then outcome
      else if tooLongAgo sample.timestamp cache.timestamp then
        { outcome with cache := some ⟨sample.timestamp, 1, false⟩ }
      else if targetRandomxEventsCount < cache.eventsCount + 1 then
        { cache := some ⟨sample.timestamp, cache.eventsCount + 1, true⟩
          alerts := outcome.alerts ++ [sample.event convert] }
      else { outcome with cache := some ⟨sample.timestamp, cache.eventsCount + 1, false⟩ }

section Refinement

variable {convert}

/-- The count of a sample's namespace is updated and checked. -/
theorem outcome_count (detector : Detector) (sample : RandomxEvent) (eventsCount : UInt64)
    (mntnsId : UInt64) :
    ((detector.put sample.mntnsId ⟨sample.timestamp, eventsCount, false⟩).check convert
      sample).outcome mntnsId =
      if sample.mntnsId = mntnsId then
        if targetRandomxEventsCount < eventsCount then
          { cache := some ⟨sample.timestamp, eventsCount, true⟩
            alerts := detector.alertsFor mntnsId ++ [sample.event convert] }
        else ⟨some ⟨sample.timestamp, eventsCount, false⟩, detector.alertsFor mntnsId⟩
      else detector.outcome mntnsId := by
  by_cases henough : targetRandomxEventsCount < eventsCount <;>
    by_cases hother : sample.mntnsId = mntnsId
  · subst hother
    simp [Detector.check, Detector.put, Detector.outcome, Detector.alertsFor, henough,
      RandomxEvent.event]
  · simp [Detector.check, Detector.put, Detector.outcome, Detector.alertsFor, henough,
      RandomxEvent.event, hother, Finmap.lookup_insert_of_ne _ (Ne.symm hother)]
  · subst hother
    simp [Detector.check, Detector.put, Detector.outcome, Detector.alertsFor, henough]
  · simp [Detector.check, Detector.put, Detector.outcome, Detector.alertsFor, henough, hother,
      Finmap.lookup_insert_of_ne _ (Ne.symm hother)]

/-- A sample is counted for its own namespace and for no other. -/
theorem outcome_observe (detector : Detector) (sample : RandomxEvent) (mntnsId : UInt64) :
    (detector.observe convert sample).outcome mntnsId =
      if sample.mntnsId = mntnsId then (detector.outcome mntnsId).observe convert sample
      else detector.outcome mntnsId := by
  have hown : (detector.outcome sample.mntnsId).cache =
      detector.mntnsToEventCount.lookup sample.mntnsId := rfl
  by_cases hother : sample.mntnsId = mntnsId
  · subst hother
    rw [if_pos rfl, Detector.observe, Outcome.observe, hown]
    cases hcache : detector.mntnsToEventCount.lookup sample.mntnsId with
    | none =>
        dsimp only
        rw [outcome_count, if_pos rfl, if_neg (by decide)]
        rfl
    | some cache =>
        cases halerted : cache.alerted with
        | true => simp [halerted]
        | false =>
            simp only [halerted, Bool.false_eq_true, if_true, if_false]
            split_ifs with htooLong henough
            · rw [outcome_count, if_pos rfl, if_neg (by decide)]
              rfl
            · rw [outcome_count, if_pos rfl, if_pos henough]
              rfl
            · rw [outcome_count, if_pos rfl, if_neg henough]
              rfl
  · rw [if_neg hother, Detector.observe]
    cases hcache : detector.mntnsToEventCount.lookup sample.mntnsId with
    | none =>
        dsimp only
        rw [outcome_count, if_neg hother]
    | some cache =>
        dsimp only
        split_ifs
        · rw [outcome_count, if_neg hother]
        · rw [outcome_count, if_neg hother]
        · rfl

/-- One reading changes a namespace by its own samples only. -/
theorem outcome_step {detector next : Detector} {reading : Reading}
    (hstep : detector.step convert reading = some next) (mntnsId : UInt64) :
    next.outcome mntnsId = (reading.samplesOf mntnsId).foldl (Outcome.observe convert)
      (detector.outcome mntnsId) := by
  cases Detector.step_cases hstep with
  | closed => rfl
  | failed err => simp [Detector.outcome, Detector.alertsFor, Reading.samplesOf, Reading.samples]
  | lost record hlost =>
      simp [Detector.outcome, Detector.alertsFor, Reading.samplesOf, Reading.samples, hlost]
  | sample record sample hlost hsample =>
      rw [outcome_observe, Reading.samplesOf, Reading.samples, if_neg hlost, hsample]
      by_cases hown : sample.mntnsId = mntnsId <;> simp [hown]

/-- A namespace depends on a run through its own samples only. -/
theorem outcome_of_run {detector : Detector} {readings : List Reading}
    (hrun : (detectorMachine convert).run .started readings = some detector) (mntnsId : UInt64) :
    detector.outcome mntnsId =
      (samplesOf mntnsId readings).foldl (Outcome.observe convert) ⟨none, []⟩ := by
  have hstart : Detector.started.outcome mntnsId = ⟨none, []⟩ := by
    simp [Detector.outcome, Detector.started, Detector.alertsFor]
  rw [← hstart]
  exact (detectorMachine convert).run_foldl
    (fun _ _ _ hstep => outcome_step hstep mntnsId) hrun

/-- The keys that were put are those of the namespaces that were reported. -/
def Detector.PutsReported (detector : Detector) : Prop :=
  detector.filterPuts =
    (detector.called.filter fun event => event.type = .normal).map Event.mountNsID

theorem Detector.PutsReported.check {detector : Detector} (hputs : detector.PutsReported)
    (sample : RandomxEvent) : (detector.check convert sample).PutsReported := by
  unfold PutsReported at hputs
  simp only [Detector.check]
  split_ifs
  · simp [PutsReported, RandomxEvent.event, hputs]
  · exact hputs

theorem Detector.PutsReported.observe {detector : Detector} (hputs : detector.PutsReported)
    (sample : RandomxEvent) : (detector.observe convert sample).PutsReported := by
  have hput : ∀ cache, (detector.put sample.mntnsId cache).PutsReported := fun _ => hputs
  unfold Detector.observe
  split
  · exact (hput _).check sample
  · split_ifs
    · exact (hput _).check sample
    · exact (hput _).check sample
    · exact hputs

theorem Detector.PutsReported.step {detector next : Detector} {reading : Reading}
    (hputs : detector.PutsReported) (hstep : detector.step convert reading = some next) :
    next.PutsReported := by
  cases Detector.step_cases hstep with
  | closed => exact hputs
  | failed err => simpa [PutsReported] using hputs
  | lost record hlost => simpa [PutsReported] using hputs
  | sample record sample => exact hputs.observe sample

/-- In every run the filter map is updated for exactly the namespaces that were reported. -/
theorem putsReported_of_reachable {detector : Detector}
    (hreach : (detectorMachine convert).Reachable detector) : detector.PutsReported := by
  apply Foundation.Machine.Reachable.invariant _ _ hreach
  · rintro _ rfl
    rfl
  · intro state reading next hputs hstep
    exact @Detector.PutsReported.step convert _ _ _ hputs hstep

/-- The reading is lost samples or a sample, after which the loop reads on. -/
def Reading.Continues : Reading → Prop
  | .closed | .failed _ => False
  | .record read => 0 < read.lostSamples ∨ read.rawSample.isSome

instance : DecidablePred Reading.Continues
  | .closed | .failed _ => .isFalse id
  | .record _ => inferInstanceAs (Decidable (_ ∨ _))

theorem check_returned (detector : Detector) (sample : RandomxEvent) :
    (detector.check convert sample).returned = detector.returned := by
  unfold Detector.check
  dsimp only
  split_ifs <;> rfl

theorem observe_returned (detector : Detector) (sample : RandomxEvent) :
    (detector.observe convert sample).returned = detector.returned := by
  unfold Detector.observe
  split
  · rw [check_returned]
    rfl
  · split_ifs
    · rw [check_returned]
      rfl
    · rw [check_returned]
      rfl
    · rfl

/-- Every stream of samples and lost samples is read to its end. -/
theorem exists_run_of_continues {detector : Detector} {readings : List Reading}
    (hreading : detector.returned = false) (hcontinues : ∀ reading ∈ readings, reading.Continues) :
    ∃ last, (detectorMachine convert).run detector readings = some last := by
  induction readings generalizing detector with
  | nil => exact ⟨detector, rfl⟩
  | cons reading rest ih =>
      obtain ⟨next, hstep, hnext⟩ : ∃ next, detector.step convert reading = some next ∧
          next.returned = false := by
        have hread := hcontinues reading List.mem_cons_self
        unfold Detector.step
        rw [if_neg (by simp [hreading])]
        cases reading with
        | closed | failed _ => exact hread.elim
        | record read =>
            dsimp only
            split_ifs with hlost
            · exact ⟨_, rfl, hreading⟩
            · obtain ⟨sample, hsample⟩ :=
                Option.isSome_iff_exists.mp (Or.resolve_left hread hlost)
              rw [hsample]
              exact ⟨_, rfl, (observe_returned detector sample).trans hreading⟩
      obtain ⟨last, hlast⟩ := ih hnext fun other hother =>
        hcontinues other (List.mem_cons_of_mem _ hother)
      exact ⟨last, (detectorMachine convert).run_cons.mpr ⟨next, hstep, hlast⟩⟩

/-- The count of a namespace that is counted, after one more sample. -/
def RandomxEventCache.countWith (cache : RandomxEventCache) (sample : RandomxEvent) : UInt64 :=
  if tooLongAgo sample.timestamp cache.timestamp then 1 else cache.eventsCount + 1

theorem Outcome.cache_observe {outcome : Outcome} {cache : RandomxEventCache}
    {sample : RandomxEvent} (hcache : outcome.cache = some cache)
    (hcounted : cache.alerted = false) :
    (outcome.observe convert sample).cache =
      some ⟨sample.timestamp, cache.countWith sample,
        decide (targetRandomxEventsCount < cache.countWith sample)⟩ := by
  rw [Outcome.observe, hcache, RandomxEventCache.countWith]
  simp only [hcounted, Bool.false_eq_true, if_false]
  split_ifs with htooLong henough
  · rfl
  · rw [decide_eq_true henough]
  · rw [decide_eq_false henough]

end Refinement

/-! ## The gap -/

/-- The greatest gap, in nanoseconds. -/
def maxGap : Nat := maxSecondsBetweenEvents.toNat * 1000000000

/-- The unsigned difference is large if the sample is much later than the last one, and also
if it is at all earlier, unless by almost the whole range. -/
theorem tooLongAgo_iff (timestamp last : UInt64) :
    tooLongAgo timestamp last = true ↔
      last.toNat + maxGap < timestamp.toNat ∨
        timestamp.toNat < last.toNat ∧ last.toNat + maxGap < timestamp.toNat + 2 ^ 64 := by
  have hgap : (maxSecondsBetweenEvents * 1000000000).toNat = maxGap := by decide
  have hmax : maxGap = 5000000000 := by decide
  have hlast := last.toNat_lt
  have htimestamp := timestamp.toNat_lt
  rw [tooLongAgo, decide_eq_true_iff, UInt64.lt_iff_toNat_lt, hgap, UInt64.toNat_sub, hmax]
  omega

theorem toNat_succ_of_low {eventsCount : UInt64} (hlow : ¬ targetRandomxEventsCount < eventsCount) :
    (eventsCount + 1).toNat = eventsCount.toNat + 1 := by
  have htarget : targetRandomxEventsCount.toNat = 50 := rfl
  have hone : (1 : UInt64).toNat = 1 := rfl
  rw [UInt64.lt_iff_toNat_lt] at hlow
  rw [UInt64.toNat_add, hone]
  exact Nat.mod_eq_of_lt (by omega)

/-! ## A miner -/

/-- The conversions on a host that booted at some time. -/
def hostConversions : Conversions where
  wallTimeFromBootTime timestamp := timestamp.toInt64 + 1700000000000000000
  fromCString bytes := .ofList ((bytes.takeWhile (· ≠ 0)).map fun byte => .ofNat byte.toNat)

/-- A sample of some miner. -/
def xmrigSample (mntnsId timestamp : UInt64) : RandomxEvent :=
  { timestamp := timestamp, mntnsId := mntnsId, pid := 42, ppid := 1, uid := 0, gid := 0
    comm := #v[120, 109, 114, 105, 103, 0, 0, 0, 0, 0, 0, 0, 0, 0, 0, 0] }

end Kapprofiler.Tracing.Randomx
