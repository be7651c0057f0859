import Kapprofiler.Collector.SingleTimer

/-! # The delay of a finalization timer

`startFinalizationTimer` draws the jitter from a range that must not be empty and
computes the delay in 64 bits. Neither `StartCollectorManager` nor the finalizer
checks the two settings first.
-/

namespace Kapprofiler.Collector

open Foundation

variable {config : CollectorManagerConfig} {finalizer next : Finalizer}

/-- `rand.Intn(n)`, which panics unless `n` is positive. The source draws any number. -/
def intn (n : Int64) (draw : Nat) : Option Int64 :=
  if 0 < n then some (Int64.ofNat (draw % n.toInt.toNat)) else none

/-- `time.Second`, in nanoseconds. -/
def second : Int64 := 1000000000

/-- The duration that `startFinalizationTimer` arms its timer with. -/
def finalizationDelay (config : CollectorManagerConfig) (draw : Nat) : Option Int64 :=
  (intn config.finalizeJitter.toInt64 draw).map fun jitter =>
    (config.finalizeTime + jitter.toUInt64).toInt64 * second

/-- The call reaches `startFinalizationTimer`. -/
def FinalizerCall.StartsTimer (finalizer : Finalizer) : FinalizerCall → Prop
  | .handlePodAddEvent pod => pod.ready = true ∧
      ∃ state, finalizer.podFinalizerState.lookup (generateTableKey pod.name pod.nameSpace) =
        some state
  | .handlePodUpdateEvent pod => finalizer.UpdateStarts pod
  | .markAttachedPod pod => pod.ready = true
  | _ => False

/-- A delay between the finalize time and the longest jitter after it. -/
def InFinalizationWindow (config : CollectorManagerConfig) (delay : Int) : Prop :=
  (config.finalizeTime.toNat : Int) * 1000000000 ≤ delay ∧
    delay < (config.finalizeTime.toNat + max config.finalizeJitter.toNat 1 : Nat) * 1000000000

/-- In every run each call that starts a timer does so without a panic, and with a delay
in the window, whatever is drawn. -/
def DelaysWellDefined (config : CollectorManagerConfig) : Prop :=
  ∀ (calls : List FinalizerCall) (finalizer : Finalizer) (call : FinalizerCall) (draw : Nat),
    (finalizerMachine config).run .empty calls = some finalizer → call.StartsTimer finalizer →
    (call.on config finalizer).isSome ∧
      ∃ delay, finalizationDelay config draw = some delay ∧
        InFinalizationWindow config delay.toInt

/-! ## 64 bits -/

theorem toInt64_eq_ofNat (n : UInt64) : n.toInt64 = Int64.ofNat n.toNat := by
  rw [← UInt64.toInt64_ofNat', UInt64.ofNat_toNat]

theorem toInt_toInt64 {n : UInt64} (hlt : n.toNat < 2 ^ 63) : n.toInt64.toInt = n.toNat := by
  rw [toInt64_eq_ofNat, Int64.toInt_ofNat_of_lt hlt]

theorem pos_toInt64_iff (n : UInt64) : 0 < n.toInt64 ↔ 0 < n.toNat ∧ n.toNat < 2 ^ 63 := by
  have hbound : n.toNat < 2 ^ 64 := n.toNat_lt
  have hint : n.toInt64.toInt = (n.toNat : Int).bmod (2 ^ 64) := by
    rw [toInt64_eq_ofNat, Int64.toInt_ofNat']
    rfl
  rw [Int64.lt_iff_toInt_lt, hint, Int.bmod_def, Int64.toInt_zero]
  split <;> omega

theorem intn_eq_some {n : UInt64} (hpos : 0 < n.toNat) (hlt : n.toNat < 2 ^ 63) (draw : Nat) :
    intn n.toInt64 draw = some (Int64.ofNat (draw % n.toNat)) := by
  rw [intn, if_pos ((pos_toInt64_iff n).mpr ⟨hpos, hlt⟩), toInt_toInt64 hlt, Int.toNat_natCast]

/-- The draw is positive and fits: the delay is the sum, in nanoseconds and in 64 bits. -/
theorem finalizationDelay_eq (hpos : 0 < config.finalizeJitter.toNat)
    (hlt : config.finalizeJitter.toNat < 2 ^ 63) (draw : Nat) :
    ∃ sum : UInt64, finalizationDelay config draw = some (sum.toInt64 * second) ∧
      sum.toNat = (config.finalizeTime.toNat + draw % config.finalizeJitter.toNat) % 2 ^ 64 := by
  have hdraw : draw % config.finalizeJitter.toNat < 2 ^ 63 := (Nat.mod_lt _ hpos).trans hlt
  refine ⟨config.finalizeTime + UInt64.ofNat (draw % config.finalizeJitter.toNat), ?_, ?_⟩
  · rw [finalizationDelay, intn_eq_some hpos hlt, Option.map_some, ← UInt64.toInt64_ofNat',
      UInt64.toUInt64_toInt64]
  · rw [UInt64.toNat_add, UInt64.toNat_ofNat', Nat.add_mod_mod]

/-- The multiplication by `time.Second` is exact up to the largest duration. -/
theorem toInt_seconds {sum : UInt64} (hsmall : sum.toNat ≤ 9223372036) :
    (sum.toInt64 * second).toInt = sum.toNat * 1000000000 := by
  have hsecond : second.toInt = 1000000000 := rfl
  rw [Int64.toInt_mul, toInt_toInt64 (by omega), hsecond]
  apply Int.bmod_eq_of_le <;> omega

/-- One second more, and the duration is negative. -/
theorem toInt_seconds_overflow {sum : UInt64} (hsum : sum.toNat = 9223372037) :
    (sum.toInt64 * second).toInt < 0 := by
  have heq : sum = 9223372037 := UInt64.toNat_inj.mp hsum
  subst heq
  decide

/-! ## The calls that start a timer -/

theorem startFinalizationTimer_isSome_iff (finalizer : Finalizer) (pod : Pod) (draw : Nat) :
    (finalizer.startFinalizationTimer config pod).isSome ↔
      (finalizationDelay config draw).isSome := by
  rw [finalizationDelay, Option.isSome_map, intn]
  unfold Finalizer.startFinalizationTimer
  by_cases hpositive : 0 < config.finalizeJitter.toNat ∧ config.finalizeJitter.toNat < 2 ^ 63
  · rw [if_pos hpositive, if_pos ((pos_toInt64_iff _).mpr hpositive)]
    simp
  · rw [if_neg hpositive, if_neg (mt (pos_toInt64_iff _).mp hpositive)]
    simp

/-- Such a call panics exactly if the draw of the jitter does. -/
theorem FinalizerCall.StartsTimer.on_isSome_iff {call : FinalizerCall}
    (hstarts : call.StartsTimer finalizer) (draw : Nat) :
    (call.on config finalizer).isSome ↔ (finalizationDelay config draw).isSome := by
  cases call with
  | handlePodAddEvent pod =>
      obtain ⟨hready, state, hstate⟩ := hstarts
      rw [← startFinalizationTimer_isSome_iff finalizer pod draw]
      simp [FinalizerCall.on, Finalizer.handlePodAddEvent, hstate, hready]
  | handlePodUpdateEvent pod =>
      obtain ⟨hready, state, hstate, hrecording, htimer⟩ := hstarts
      rw [← startFinalizationTimer_isSome_iff finalizer pod draw]
      simp [FinalizerCall.on, Finalizer.handlePodUpdateEvent, hstate, hready, hrecording, htimer]
  | markAttachedPod pod =>
      rw [← startFinalizationTimer_isSome_iff finalizer pod draw]
      have hready : pod.ready = true := hstarts
      simp [FinalizerCall.on, Finalizer.markAttachedPod, hready]
  | _ => exact hstarts.elim

/-! ## The two settings -/

/-- Within the bound nothing is lost: the draw, the sum and the product are exact. -/
theorem delay_inFinalizationWindow (hjitter : 0 < config.finalizeJitter.toNat)
    (hsum : config.finalizeTime.toNat + config.finalizeJitter.toNat ≤ 9223372037) (draw : Nat) :
    ∃ delay, finalizationDelay config draw = some delay ∧
      InFinalizationWindow config delay.toInt := by
  obtain ⟨sum, hdelay, hvalue⟩ := finalizationDelay_eq hjitter (by omega) draw
  have hdraw : draw % config.finalizeJitter.toNat < config.finalizeJitter.toNat :=
    Nat.mod_lt _ hjitter
  rw [Nat.mod_eq_of_lt (by omega)] at hvalue
  have hexact : (sum.toInt64 * second).toInt = sum.toNat * 1000000000 :=
    toInt_seconds (by omega)
  refine ⟨_, hdelay, ?_, ?_⟩
  · rw [hexact]
    omega
  · rw [hexact]
    omega

/-- A jitter of zero, or one that is negative as an `int`, panics. -/
theorem finalizationDelay_eq_none
    (hpanics : ¬ (0 < config.finalizeJitter.toNat ∧ config.finalizeJitter.toNat < 2 ^ 63))
    (draw : Nat) : finalizationDelay config draw = none := by
  rw [finalizationDelay, intn, if_neg (mt (pos_toInt64_iff _).mp hpanics), Option.map_none]

/-- Beyond the bound some draw gives a delay outside the window. -/
theorem exists_delay_outside (hjitter : 0 < config.finalizeJitter.toNat)
    (hlt : config.finalizeJitter.toNat < 2 ^ 63)
    (hsum : 9223372037 < config.finalizeTime.toNat + config.finalizeJitter.toNat) :
    ∃ draw delay, finalizationDelay config draw = some delay ∧
      ¬ InFinalizationWindow config delay.toInt := by
  by_cases htime : config.finalizeTime.toNat ≤ 9223372036
  · -- the draw that makes the sum the first number of seconds that does not fit
    obtain ⟨sum, hdelay, hvalue⟩ := finalizationDelay_eq hjitter hlt
      (9223372037 - config.finalizeTime.toNat)
    have hdraw : (9223372037 - config.finalizeTime.toNat) % config.finalizeJitter.toNat =
        9223372037 - config.finalizeTime.toNat := Nat.mod_eq_of_lt (by omega)
    rw [hdraw, Nat.mod_eq_of_lt (by omega)] at hvalue
    have hnegative : (sum.toInt64 * second).toInt < 0 := toInt_seconds_overflow (by omega)
    refine ⟨_, _, hdelay, fun hwindow => ?_⟩
    have hlower := hwindow.1
    omega
  · -- the finalize time itself is longer than every duration
    obtain ⟨sum, hdelay, -⟩ := finalizationDelay_eq hjitter hlt 0
    refine ⟨_, _, hdelay, fun hwindow => ?_⟩
    have hlower := hwindow.1
    have hupper := Int64.toInt_lt (sum.toInt64 * second)
    omega

/-- A pod that is reported as added twice. -/
theorem exists_starting_call (config : CollectorManagerConfig) :
    ∃ calls finalizer call, (finalizerMachine config).run .empty calls = some finalizer ∧
      FinalizerCall.StartsTimer finalizer call :=
  ⟨[.handlePodAddEvent (watchedPod true)], _, .handlePodAddEvent (watchedPod true), rfl, rfl,
    _, Finmap.lookup_insert _⟩

/-- The delay is well defined exactly if the jitter is positive and the longest delay is a
duration. -/
theorem delaysWellDefined_iff (config : CollectorManagerConfig) :
    DelaysWellDefined config ↔ 0 < config.finalizeJitter.toNat ∧
      config.finalizeTime.toNat + config.finalizeJitter.toNat ≤ 9223372037 := by
  constructor
  · intro hdefined
    obtain ⟨calls, finalizer, call, hrun, hstarts⟩ := exists_starting_call config
    have hwindow := fun draw => (hdefined calls finalizer call draw hrun hstarts).2
    have hpositive : 0 < config.finalizeJitter.toNat ∧
        config.finalizeJitter.toNat < 2 ^ 63 := by
      by_contra hpanics
      obtain ⟨delay, hdelay, -⟩ := hwindow 0
      rw [finalizationDelay_eq_none hpanics] at hdelay
      cases hdelay
    refine ⟨hpositive.1, ?_⟩
    by_contra hsum
    obtain ⟨draw, delay, hdelay, houtside⟩ :=
      exists_delay_outside hpositive.1 hpositive.2 (Nat.lt_of_not_le hsum)
    obtain ⟨other, hother, hinside⟩ := hwindow draw
    obtain rfl := Option.some.inj (hdelay.symm.trans hother)
    exact houtside hinside
  · rintro ⟨hjitter, hsum⟩ calls finalizer call draw - hstarts
    obtain ⟨delay, hdelay, hinside⟩ := delay_inFinalizationWindow hjitter hsum draw
    refine ⟨?_, delay, hdelay, hinside⟩
    rw [hstarts.on_isSome_iff draw, hdelay]
    rfl

/-- The finalization jitter is disabled, as `main` says it can be: a pod that is added
again once it is ready makes the random source panic. -/
theorem disabled_jitter_panics : ¬ ∀ config : CollectorManagerConfig, DelaysWellDefined config := by
  intro hclaim
  obtain ⟨-, delay, hdelay, -⟩ := hclaim { mainConfig with finalizeJitter := 0 }
    [.handlePodAddEvent (watchedPod false)] _ (.handlePodAddEvent (watchedPod true)) 0 rfl
    ⟨rfl, _, Finmap.lookup_insert _⟩
  cases hdelay

end Kapprofiler.Collector
