import Splitforge.Domain.Policy
import Mathlib.Data.Prod.Lex

/-!
# Event configuration

Checkpoints, participants, who wears which chip when, and which antenna covers which checkpoint.
-/

namespace Splitforge.Domain

open Std (ExtTreeMap)

/-- A participant at a checkpoint can be looked up by the order of pairs. -/
instance : Std.TransOrd (ParticipantId ×ₗ CheckpointId) := inferInstance

/-- An antenna of a reader can be looked up by the order of pairs. -/
instance : Std.TransOrd (ReaderId ×ₗ Nat) := inferInstance

/-- What role a checkpoint plays on the course. -/
inductive CheckpointKind where
  | start | split | finish | lap
deriving DecidableEq

/-- A point on the course where crossings are detected. -/
structure Checkpoint where
  id : CheckpointId
  race : RaceId
  name : String
  kind : CheckpointKind
  sequence : UInt16
deriving DecidableEq

/-- Someone taking part. -/
structure Participant where
  id : ParticipantId
  race : RaceId
  bib : Bib
  name : String
deriving DecidableEq

/-- A chip worn by a participant for a bounded window of time. The start is inclusive and the
end exclusive; an absent end means open-ended. -/
structure ChipAssignment where
  chip : ChipId
  participant : ParticipantId
  race : RaceId
  validFrom : OffsetDateTime
  validUntil : Option OffsetDateTime
deriving DecidableEq

/-- Whether this assignment covers the given instant. -/
def ChipAssignment.covers (assignment : ChipAssignment) (at' : OffsetDateTime) : Bool :=
  decide (assignment.validFrom ≤ at') && assignment.validUntil.all fun till => at' < till

/-- Time-aware chip to participant resolution. -/
structure ChipRegistry where
  byChip : ExtTreeMap ChipId (List ChipAssignment)

/-- `ChipRegistry::resolve`: the assignment in force for a chip at an instant, if any. -/
def ChipRegistry.resolve (registry : ChipRegistry) (chip : ChipId) (at' : OffsetDateTime) :
    Option ChipAssignment :=
  registry.byChip[chip]?.bind fun assignments =>
    assignments.find? fun assignment => assignment.covers at'

/-- `ChipRegistry::participant_at`. -/
def ChipRegistry.participantAt (registry : ChipRegistry) (chip : ChipId)
    (at' : OffsetDateTime) : Option ParticipantId :=
  (registry.resolve chip at').map (·.participant)

/-- Maps a reader and antenna to the checkpoint it covers. A wildcard covers every antenna of a
reader. -/
structure AntennaMap where
  exact : ExtTreeMap (ReaderId ×ₗ Nat) CheckpointId
  wildcard : ExtTreeMap ReaderId CheckpointId

/-- `AntennaMap::new`: a map without entries. -/
def AntennaMap.new : AntennaMap := ⟨∅, ∅⟩

/-- `AntennaMap::map_antenna`: one antenna on a reader covers a checkpoint. -/
def AntennaMap.mapAntenna (antennas : AntennaMap) (reader : ReaderId) (antenna : UInt16)
    (checkpoint : CheckpointId) : AntennaMap :=
  { antennas with exact := antennas.exact.insert (toLex (reader, antenna.toNat)) checkpoint }

/-- `AntennaMap::map_reader`: every antenna on a reader covers a checkpoint. -/
def AntennaMap.mapReader (antennas : AntennaMap) (reader : ReaderId)
    (checkpoint : CheckpointId) : AntennaMap :=
  { antennas with wildcard := antennas.wildcard.insert reader checkpoint }

/-- `AntennaMap::resolve`: an antenna's own entry beats the reader-wide wildcard. -/
def AntennaMap.resolve (antennas : AntennaMap) (reader : ReaderId) (antenna : Option UInt16) :
    Option CheckpointId :=
  (antenna.bind fun antenna => antennas.exact[toLex (reader, antenna.toNat)]?).or
    antennas.wildcard[reader]?

/-- `AntennaMap::is_empty`: whether the map has no entries. -/
def AntennaMap.isEmpty (antennas : AntennaMap) : Bool :=
  antennas.exact.isEmpty && antennas.wildcard.isEmpty

/-- `AntennaMap::entries`: every mapping, the wildcards first. -/
def AntennaMap.entries (antennas : AntennaMap) : List (ReaderId × Option Nat × CheckpointId) :=
  (antennas.wildcard.toList.map fun entry => (entry.1, none, entry.2)) ++
    antennas.exact.toList.map fun entry =>
      ((ofLex entry.1).1, some (ofLex entry.1).2, entry.2)

/-- What an operator wrote down when a chip did not record it: a participant was at a checkpoint
at a time. -/
structure ManualEntry where
  id : ManualEntryId
  race : RaceId
  participant : ParticipantId
  checkpoint : CheckpointId
  «at» : OffsetDateTime
  actor : String
  reason : String
deriving DecidableEq

end Splitforge.Domain
