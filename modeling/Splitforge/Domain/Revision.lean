import Splitforge.Domain.Result

/-!
# Result revisions

A published set of results, and the fingerprint of what it says.
-/

namespace Splitforge.Domain

open Splitforge.Library

/-- Whether a revision is still expected to change. -/
inductive RevisionStatus where
  | provisional | final
deriving DecidableEq

/-- `RevisionStatus::as_str`. -/
def RevisionStatus.asStr : RevisionStatus → String
  | .provisional => "provisional"
  | .final => "final"

/-- `ResultStatus::as_str`. -/
def ResultStatus.asStr : ResultStatus → String
  | .finished => "finished"
  | .dns => "dns"
  | .dnf => "dnf"
  | .dq => "dq"

/-- An immutable, published set of results. -/
structure ResultRevision where
  race : RaceId
  number : Nat
  status : RevisionStatus
  generatedAt : OffsetDateTime
  reason : String
  policy : ScoringPolicy
  entries : List ResultEntry

/-- The ASCII record separator that ends an entry of a digest. -/
def recordSeparator : Char := Char.ofNat 0x1e

/-- A number in a digest, or a dash. -/
def orDash {Number : Type} [ToString Number] (number : Option Number) : List Char :=
  (number.map fun number => (toString number).toList).getD ['-']

/-- What a digest says of an entry. -/
def digestOf (entry : ResultEntry) : List Char :=
  entry.bib.text.toList ++ unitSeparator :: entry.status.asStr.toList ++ unitSeparator ::
    orDash entry.scoringTimeMs ++ unitSeparator :: orDash entry.place ++ [recordSeparator]

/-- A UUID as text without hyphens. -/
def Uuid.simple (id : Uuid) : String := String.ofList (Hex.ofNat 32 id.value)

/-- `ResultRevision::digest`: a fingerprint of the scored rows, ignoring publication metadata. -/
def ResultRevision.digest (newV5 : Uuid → String → Uuid) (revision : ResultRevision) : String :=
  (derivedUuid newV5 "result-digest" [String.ofList (revision.entries.flatMap digestOf)]).simple

end Splitforge.Domain
