import Splitforge.Cli.Bundle

/-!
# The time source of the device

What the diagnosis says about an answer of the time daemon: the findings it raises, and the view
it prints.
-/

namespace Splitforge.Cli

open Splitforge.Domain Splitforge.Storage

/-! ## The answer of the daemon -/

/-- The leap second status of chrony. -/
inductive LeapStatus where
  | normal | insertSecond | deleteSecond | notSynchronised
deriving DecidableEq

/-- `LeapStatus::is_synchronized`. -/
def LeapStatus.isSynchronized (leap : LeapStatus) : Bool :=
  leap ≠ .notSynchronised

/-- `LeapStatus::leap_pending`: whether a leap second is scheduled. -/
def LeapStatus.leapPending (leap : LeapStatus) : Bool :=
  leap = .insertSecond ∨ leap = .deleteSecond

/-- What the time daemon believes. -/
structure ClockTracking where
  referenceId : UInt32
  referenceName : String
  stratum : UInt8
  rmsOffsetSeconds : Float
  leap : LeapStatus

/-- `GPS_REFERENCE_PREFIXES`. -/
def gpsReferencePrefixes : List String := ["PPS", "GPS", "NMEA", "GPSD", "SHM", "SOCK"]

section Addresses

variable (isIpAddr : String → Bool)

/-- `ClockTracking::is_local_reference`: chrony prints an address for a network source and a short
name for a clock that is attached. `isIpAddr` is whether a text parses as an address. -/
def ClockTracking.isLocalReference (tracking : ClockTracking) : Bool :=
  tracking.referenceName ≠ "" && !isIpAddr tracking.referenceName

/-- `ClockTracking::is_gps_reference`. -/
def ClockTracking.isGpsReference (tracking : ClockTracking) : Bool :=
  if !tracking.isLocalReference isIpAddr then false
  else
    let name := (Raceday.trim tracking.referenceName).toList.map Char.toUpper
    gpsReferencePrefixes.any fun start => start.toList.isPrefixOf name

/-- `ClockTracking::device_clock_state`. -/
def ClockTracking.deviceClockState (tracking : ClockTracking) : DeviceClockState :=
  -- a daemon that lost its source may still name it
  if !tracking.leap.isSynchronized ∨ tracking.stratum = 0 ∨ tracking.referenceId = 0 then .unsynced
  else if tracking.isGpsReference isIpAddr then .gpsLocked
  else .ntpSynced

/-- What asking the daemon produced. -/
inductive ClockReading where
  | tracking (tracking : ClockTracking)
  | noDaemonTool
  | daemonUnreachable (detail : String)
  | unreadable (detail : String)

/-- `ClockReading::device_clock_state`: no state where nothing was measured. -/
def ClockReading.deviceClockState : ClockReading → Option DeviceClockState
  | .tracking found => some (found.deviceClockState isIpAddr)
  | _ => none

/-- `ClockReading::measurement`. -/
def ClockReading.measurement : ClockReading → String
  | .tracking _ => "measured"
  | .noDaemonTool => "no_daemon_tool"
  | .daemonUnreachable _ => "daemon_unreachable"
  | .unreadable _ => "unreadable"

/-! ## What is said about it -/

/-- `Finding::error`: something that will produce wrong results or lose data. -/
def Finding.error (check detail : String) : Finding := ⟨"error", check, detail⟩

/-- `Finding::warning`: something worth knowing before the gun. -/
def Finding.warning (check detail : String) : Finding := ⟨"warning", check, detail⟩

/-- `findings_for`: what the diagnosis says about a reading, if anything. -/
def findingsFor : ClockReading → List Finding
  | .tracking tracking =>
      if !(tracking.deviceClockState isIpAddr).isTrustworthy then
        [.warning "clock.source" ("the device clock is not synchronized to any time source. Gun " ++
          "and finish times will still be recorded from it, and their accuracy is whatever the " ++
          "clock happens to be — see docs/clock-and-time-discipline.md.")]
      else if tracking.leap.leapPending then
        [.warning "clock.source" ("a leap second is scheduled at the end of today, UTC. The " ++
          "device clock will step by one second at midnight UTC, and every result whose time " ++
          "spans it will be published flagged `clock_step_during_result`.")]
      else []
  | .daemonUnreachable _ | .unreadable _ =>
      [.warning "clock.source" ("a time daemon is installed but gave no usable answer, so this " ++
        "device's clock state is unknown going into the race.")]
  | .noDaemonTool => []

/-- The view of a reading without a measurement. -/
def ClockSourceView.unmeasured (reading : ClockReading) (detail : String) : ClockSourceView where
  measurement := reading.measurement
  state := (reading.deviceClockState isIpAddr).map clockStateToStr
  detail
  referenceKind := none
  reference := none
  stratum := none
  rmsOffsetMs := none
  leapPending := none

/-- `ClockSourceView::of`. -/
def ClockSourceView.of (reading : ClockReading) : ClockSourceView :=
  match reading with
  | .tracking tracking =>
      -- an empty name is that of no reference, which is neither local nor a peer
      let (referenceKind, following) :=
        if tracking.referenceName = "" then (none, "following no reference at all")
        else if tracking.isLocalReference isIpAddr then
          (some "local", "following a local reference clock")
        else (some "network", "following a network time source")
      { measurement := reading.measurement
        state := (reading.deviceClockState isIpAddr).map clockStateToStr
        detail := "chrony reports stratum " ++ toString tracking.stratum.toNat ++ ", " ++ following
        referenceKind
        reference := referenceKind.map fun _ => tracking.referenceName
        stratum := some tracking.stratum.toNat
        rmsOffsetMs := some (tracking.rmsOffsetSeconds * 1000)
        leapPending := some tracking.leap.leapPending }
  | .noDaemonTool =>
      .unmeasured isIpAddr reading
        "no `chronyc` on this machine, so the time source was not determined"
  | .daemonUnreachable detail =>
      .unmeasured isIpAddr reading ("`chronyc` could not reach the time daemon: " ++ detail)
  | .unreadable detail =>
      .unmeasured isIpAddr reading ("`chronyc` answered unreadably: " ++ detail)

/-- Whatever the daemon answers, it is a warning at most. -/
theorem warning_of_findings_for (reading : ClockReading) :
    ∀ finding ∈ findingsFor isIpAddr reading, finding.severity = "warning" := by
  intro finding hfinding
  unfold findingsFor at hfinding
  cases reading with
  | tracking found =>
      dsimp only at hfinding
      split_ifs at hfinding
      · rw [List.mem_singleton.mp hfinding, Finding.warning]
      · rw [List.mem_singleton.mp hfinding, Finding.warning]
      · cases hfinding
  | noDaemonTool => cases hfinding
  | daemonUnreachable detail => rw [List.mem_singleton.mp hfinding, Finding.warning]
  | unreadable detail => rw [List.mem_singleton.mp hfinding, Finding.warning]

end Addresses

end Splitforge.Cli
