import Splitforge.Domain.Entity
import Splitforge.Library.Grouping
import Splitforge.Library.Sorting

/-!
# A race

A race with everything needed to interpret its reads: the checkpoints, the roster, who wears which
chip when, the antennas, the rules, and the starts and stops that were recorded.
-/

namespace Splitforge.Domain

open Std (ExtTreeMap)
open Splitforge.Library

/-- A single race within an event. -/
structure Race where
  id : RaceId
  name : String
  scheduledStart : Option OffsetDateTime
  expectedLaps : UInt16
deriving DecidableEq

/-- What an operator did to a race clock. -/
inductive SessionAction where
  | start | stop
deriving DecidableEq

/-- A recorded start or stop, and the instant being recorded. -/
structure RaceSession where
  action : SessionAction
  «at» : OffsetDateTime
deriving DecidableEq

/-- Why a chip registry could not be built. -/
inductive DomainError where
  | overlappingChipAssignment (chip : ChipId)
deriving DecidableEq

/-- `ChipAssignment::overlaps`: each starts before the other ends. -/
def ChipAssignment.overlaps (assignment other : ChipAssignment) : Bool :=
  (other.validUntil.all fun till => assignment.validFrom < till) &&
    assignment.validUntil.all fun till => other.validFrom < till

/-- Whether two assignments next to each other overlap. -/
def anyOverlap : List ChipAssignment → Bool
  | first :: second :: rest => first.overlaps second || anyOverlap (second :: rest)
  | _ => false

/-- `ChipRegistry::from_assignments`: a registry, unless one chip is assigned twice at one
instant. -/
def ChipRegistry.fromAssignments (assignments : List ChipAssignment) :
    Except DomainError ChipRegistry :=
  let byChip := (groupBy (fun assignment => some assignment.chip) assignments).map fun _ list =>
    sortByKey ChipAssignment.validFrom list
  match byChip.toList.find? fun entry => anyOverlap entry.2 with
  | some (chip, _) => .error (.overlappingChipAssignment chip)
  | none => .ok ⟨byChip⟩

/-- Everything needed to interpret one race's reads. Each checkpoint is stored under its own
identifier. -/
structure RaceConfig where
  race : Race
  checkpoints : List Checkpoint
  participants : List Participant
  assignments : List ChipAssignment
  antennas : AntennaMap
  policy : TimingPolicy
  sessions : List RaceSession
  distinct : (checkpoints.map (·.id)).Nodup

/-- `RaceConfig::chips`. -/
def RaceConfig.chips (config : RaceConfig) : Except DomainError ChipRegistry :=
  ChipRegistry.fromAssignments config.assignments

/-- `RaceConfig::gun_time`: the start recorded last, or else the one that was scheduled. -/
def RaceConfig.gunTime (config : RaceConfig) : Option OffsetDateTime :=
  ((config.sessions.reverse.find? fun session => session.action = .start).map (·.at)).or
    config.race.scheduledStart

end Splitforge.Domain
