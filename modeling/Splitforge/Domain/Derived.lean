import Splitforge.Domain.Entity

/-!
# Derived records

What is concluded from the evidence. Derived identifiers are version 5 UUIDs of a name built from
the evidence, so deriving again gives the same records with the same identifiers.
-/

namespace Splitforge.Domain

/-- One crossing: the single read from a burst that was credited. -/
structure AcceptedRead where
  id : AcceptedReadId
  checkpoint : CheckpointId
  chip : ChipId
  participant : Option ParticipantId
  «at» : OffsetDateTime
  sourceRawRead : RawReadId
  burstRawReads : List RawReadId
  rssiDbm : Option Int16
deriving DecidableEq

/-- The name a crossing's identifier is the hash of. -/
def acceptedName (checkpoint : CheckpointId) (chip : ChipId) (sourceRawRead : RawReadId) :
    String :=
  derivedName "accepted-read" [checkpoint.uuid.toText, chip.text, sourceRawRead.uuid.toText]

/-- `AcceptedRead::new`: a crossing with a deterministic identifier. -/
def AcceptedRead.new (newV5 : Uuid → String → Uuid) (checkpoint : CheckpointId) (chip : ChipId)
    (participant : Option ParticipantId) (at' : OffsetDateTime) (sourceRawRead : RawReadId)
    (burstRawReads : List RawReadId) (rssiDbm : Option Int16) : AcceptedRead where
  id := ⟨derivedUuid newV5 "accepted-read"
    [checkpoint.uuid.toText, chip.text, sourceRawRead.uuid.toText]⟩
  checkpoint := checkpoint
  chip := chip
  participant := participant
  «at» := at'
  sourceRawRead := sourceRawRead
  burstRawReads := burstRawReads
  rssiDbm := rssiDbm

/-- Why a raw read did not become a crossing. -/
inductive RejectionReason where
  | duplicateWithinWindow (accepted : AcceptedReadId) (intervalMs : Int)
  | belowRssiFloor (rssiDbm : Option Int16) (floorDbm : Int16)
  | belowMinLap (minLapMs : Nat) (actualMs : Int)
  | unmappedReader (reader : ReaderId) (antenna : Option UInt16)
deriving DecidableEq

/-- A raw read that was not credited, and why. -/
structure RejectedRead where
  rawRead : RawReadId
  reason : RejectionReason
deriving DecidableEq

/-- What produced a timing event. -/
inductive TimingEventOrigin where
  | acceptedRead (acceptedRead : AcceptedReadId)
  | manual (manualEntry : ManualEntryId)
deriving DecidableEq

/-- A participant was at a checkpoint at a time. -/
structure TimingEvent where
  id : TimingEventId
  participant : ParticipantId
  checkpoint : CheckpointId
  «at» : OffsetDateTime
  lap : UInt16
  origin : TimingEventOrigin
deriving DecidableEq

/-- `TimingEvent::from_accepted`. -/
def TimingEvent.fromAccepted (newV5 : Uuid → String → Uuid) (participant : ParticipantId)
    (checkpoint : CheckpointId) (at' : OffsetDateTime) (lap : UInt16)
    (acceptedRead : AcceptedReadId) : TimingEvent where
  id := ⟨derivedUuid newV5 "timing-event" [participant.uuid.toText, checkpoint.uuid.toText,
    toString lap.toNat, acceptedRead.uuid.toText]⟩
  participant := participant
  checkpoint := checkpoint
  «at» := at'
  lap := lap
  origin := .acceptedRead acceptedRead

/-- `TimingEvent::from_manual`. -/
def TimingEvent.fromManual (newV5 : Uuid → String → Uuid) (participant : ParticipantId)
    (checkpoint : CheckpointId) (at' : OffsetDateTime) (lap : UInt16)
    (manualEntry : ManualEntryId) : TimingEvent where
  id := ⟨derivedUuid newV5 "timing-event" [participant.uuid.toText, checkpoint.uuid.toText,
    toString lap.toNat, manualEntry.uuid.toText]⟩
  participant := participant
  checkpoint := checkpoint
  «at» := at'
  lap := lap
  origin := .manual manualEntry

/-- The complete output of one derivation pass. -/
structure Derivation where
  accepted : List AcceptedRead
  rejected : List RejectedRead
  timingEvents : List TimingEvent
deriving DecidableEq

/-- The name of a crossing ends in the text of its read, so crossings of different reads have
different names. -/
theorem accepted_name_injective {checkpoint checkpoint' : CheckpointId} {chip chip' : ChipId}
    {source source' : RawReadId}
    (h : acceptedName checkpoint chip source = acceptedName checkpoint' chip' source') :
    source = source' := by
  have hlist := congrArg String.toList h
  simp only [acceptedName, derivedName, String.toList_ofList, List.flatMap_cons,
    List.flatMap_nil, List.append_nil, ← List.append_assoc] at hlist
  have htext := List.append_inj_right' hlist (by simp)
  have huuid : source.uuid.toText = source'.uuid.toText :=
    String.toList_inj.mp (List.cons.inj htext).2
  exact Id.ext (Uuid.to_text_injective huuid)

end Splitforge.Domain
