import Kapprofiler.Collector.Provenance

/-! # The configuration that main reads

`main.go` makes the configuration of the collector manager out of the environment. The
list of ignored prefixes is one string, cut at its commas; a comma too many makes an empty
prefix, and every path starts with that.
-/

namespace Kapprofiler

open Collector Foundation Tracing

/-- `strings.Split(value, ",")`. -/
def splitCommas (value : String) : List String := (segments ',' value).map String.ofList

/-- The configuration that `main` starts the collector manager with. -/
def configOf (getenv : String → String) : CollectorManagerConfig where
  interval := 60
  finalizeTime := 80
  finalizeJitter := 10
  recordStrategy := .onlyIfNotExists
  ignoreMounts := getenv "OPEN_IGNORE_MOUNTS" = "true"
  ignorePrefixes :=
    if getenv "OPEN_IGNORE_PREFIXES" ≠ "" then splitCommas (getenv "OPEN_IGNORE_PREFIXES")
    else []
  storeNamespace := if getenv "STORE_NAMESPACE" ≠ "" then getenv "STORE_NAMESPACE" else ""

/-- The value starts or ends with a comma, or has two of them in a row. -/
def StrayComma (value : String) : Prop :=
  value.toList.head? = some ',' ∨ value.toList.getLast? = some ',' ∨
    [',', ','] <:+: value.toList

/-! ## Which paths are ignored -/

theorem hasPrefix_empty (path : String) : hasPrefix path "" = true := by
  simp [hasPrefix]

theorem hasPrefix_of_empty {start : String} (hstart : hasPrefix "" start = true) :
    start = "" := by
  have hempty : start.toList = [] := by simpa [hasPrefix] using hstart
  exact String.toList_inj.mp hempty

theorem empty_mem_splitCommas (value : String) :
    "" ∈ splitCommas value ↔ value = "" ∨ StrayComma value := by
  have hlist : "" ∈ splitCommas value ↔ [] ∈ value.toList.splitOn ',' := by
    unfold splitCommas segments
    rw [List.mem_map]
    constructor
    · rintro ⟨item, hitem, heq⟩
      have hnil : item = [] := by simpa using congrArg String.toList heq
      exact hnil ▸ hitem
    · exact fun hmem => ⟨[], hmem, rfl⟩
  rw [hlist, nil_mem_splitOn, StrayComma]
  exact or_congr_left (by simp)

/-- An empty item ignores every path, and without one the empty path is not ignored. -/
theorem all_ignored_iff (getenv : String → String) :
    (∀ path, (configOf getenv).ignorePrefixes.any (hasPrefix path) = true) ↔
      getenv "OPEN_IGNORE_PREFIXES" ≠ "" ∧ StrayComma (getenv "OPEN_IGNORE_PREFIXES") := by
  have hprefixes : (configOf getenv).ignorePrefixes =
      if getenv "OPEN_IGNORE_PREFIXES" ≠ "" then splitCommas (getenv "OPEN_IGNORE_PREFIXES")
      else [] := rfl
  rw [hprefixes]
  by_cases hset : getenv "OPEN_IGNORE_PREFIXES" = ""
  · simp [hset]
  · simp only [ne_eq, hset, not_false_eq_true, if_true, true_and]
    have hempty := empty_mem_splitCommas (getenv "OPEN_IGNORE_PREFIXES")
    rw [or_iff_right hset] at hempty
    rw [← hempty]
    constructor
    · intro hall
      obtain ⟨item, hitem, hstart⟩ := List.any_eq_true.mp (hall "")
      exact hasPrefix_of_empty hstart ▸ hitem
    · exact fun hmem path => List.any_eq_true.mpr ⟨"", hmem, hasPrefix_empty path⟩

/-! ## Which opens are stored -/

/-- Some run of a manager that has just been started stores an open. -/
def RecordsOpens (config : CollectorManagerConfig) : Prop :=
  ∃ labels last key object container call,
    (machine config).run freshSystem labels = some last ∧
      last.world.profiles.get key = some object ∧ object.value.Has container (.opened call)

/-- Every stored open is of a path that is not ignored. -/
theorem open_not_ignored {config : CollectorManagerConfig} {labels : List Label} {last : System}
    {key : String × String} {object : Versioned ApplicationProfile} {container : String}
    {call : OpenCalls} (hrun : (machine config).run freshSystem labels = some last)
    (hobject : last.world.profiles.get key = some object)
    (hentry : object.value.Has container (.opened call)) :
    config.ignorePrefixes.any (hasPrefix call.path) = false := by
  have hground := System.grounded_of_run initial_freshSystem rfl hrun
  rcases hground.profiles key object hobject container _ hentry with
    ⟨stored, hstored, _⟩ | ⟨_, evidence, _, _, _, _, hshows⟩
  · cases hstored
  · cases evidence with
    | opened event =>
        obtain ⟨rfl, hpath⟩ := hshows
        exact hpath
    | _ => exact hshows.elim

def openOf (path : String) : OpenEvent where
  containerName := "app"
  containerID := "1234567890"
  podName := "nginx"
  nameSpace := "default"
  pathName := path
  flags := []

/-- The container opens the path, and the open is collected. -/
def openRun (path : String) : List Label :=
  .containerStarted nginx false :: List.replicate 7 (.advance 0 {}) ++
    [.sink (.sendOpenEvent (openOf path)), .sink .openEventWorker, .timerExpired nginx] ++
    List.replicate 11 (.advance 1 {})

theorem openRun_profiles (getenv : String → String) (path : String) : ∃ last,
    (machine (configOf getenv)).run freshSystem (openRun path) = some last ∧
      last.world.profiles = VersionedStore.put .empty (nginx.profileKey (configOf getenv))
        (newProfile (configOf getenv) nginx ⟨true, false⟩
          (buildContainerProfile (configOf getenv) [] "app"
            { openEvents := [openOf path] })) :=
  ⟨_, rfl, rfl⟩

theorem built_open {config : CollectorManagerConfig} {path : String}
    (hpath : config.ignorePrefixes.any (hasPrefix path) = false) :
    (buildContainerProfile config [] "app" { openEvents := [openOf path] }).Has
      (.opened ⟨path, []⟩) := by
  have hinclude : shouldIncludeOpenEvent config [] [] (openOf path) = true := by
    simp [shouldIncludeOpenEvent, openEventExists, openOf, hpath]
  have hopens : (buildContainerProfile config [] "app" { openEvents := [openOf path] }).opens =
      [⟨path, []⟩] := appendWhen_of_admits hinclude
  unfold ContainerProfile.Has
  rw [hopens]
  exact List.mem_singleton_self _

/-- For every environment: the manager that `main` starts stores opens, unless a comma in
`OPEN_IGNORE_PREFIXES` stands at an end or next to another one. Then it never stores an
open, of no path and in no run. -/
theorem recordsOpens_iff (getenv : String → String) : RecordsOpens (configOf getenv) ↔
    getenv "OPEN_IGNORE_PREFIXES" = "" ∨ ¬ StrayComma (getenv "OPEN_IGNORE_PREFIXES") := by
  have hall := all_ignored_iff getenv
  constructor
  · rintro ⟨labels, last, key, object, container, call, hrun, hobject, hentry⟩
    have hpath := open_not_ignored hrun hobject hentry
    by_contra hstray
    rw [not_or, not_not] at hstray
    rw [hall.mpr hstray call.path] at hpath
    cases hpath
  · intro hnone
    have hsome : ∃ path, (configOf getenv).ignorePrefixes.any (hasPrefix path) = false := by
      by_contra hignored
      push Not at hignored
      obtain ⟨hset, hstray⟩ := hall.mp fun path => by simpa using hignored path
      exact hnone.elim hset fun hfine => hfine hstray
    obtain ⟨path, hpath⟩ := hsome
    obtain ⟨last, hrun, hprofiles⟩ := openRun_profiles getenv path
    have hobject := VersionedStore.put_get VersionedStore.empty
      (nginx.profileKey (configOf getenv)) (newProfile (configOf getenv) nginx ⟨true, false⟩
        (buildContainerProfile (configOf getenv) [] "app" { openEvents := [openOf path] }))
    rw [← hprofiles] at hobject
    have hentry := built_open hpath
    exact ⟨openRun path, last, _, _, "app", ⟨path, []⟩, hrun, hobject, _,
      List.mem_singleton_self _, rfl, hentry⟩

end Kapprofiler
