import Splitforge.Library.Hex
import Mathlib.Data.String.Basic
import Mathlib.Data.Fin.Basic
import Mathlib.Order.Compare
import Mathlib.Order.Fin.Basic

/-!
# Identifiers

UUIDs with their text, and the identifier newtypes. Evidence identifiers are random, minted
once and never reused. Derived identifiers are version 5 UUIDs of a name built from the
evidence; `newV5` stands for the hash of the `uuid` crate throughout.
-/

namespace Splitforge.Domain

open Splitforge.Library

/-- A UUID, as the 128-bit number its bytes spell. -/
@[ext]
structure Uuid where
  value : Fin (2 ^ 128)
deriving DecidableEq

instance : LinearOrder Uuid :=
  LinearOrder.lift' Uuid.value (fun _ _ h => Uuid.ext h)

namespace Uuid

/-- The lengths of the groups of a hyphenated UUID. -/
def groups : List Nat := [8, 4, 4, 4, 12]

/-- Writes digits in groups of the given lengths with hyphens between them. -/
def hyphenate : List Nat → List Char → List Char
  | [], _ => []
  | [size], digits => digits.take size
  | size :: rest, digits => digits.take size ++ '-' :: hyphenate rest (digits.drop size)

/-- Reads groups of the given lengths with hyphens between them, and joins their digits. -/
def dehyphenate : List Nat → List Char → Option (List Char)
  | [], text => if text = [] then some [] else none
  | [size], text => if text.length = size then some text else none
  | size :: rest, text =>
      match text.drop size with
      | '-' :: text' => (dehyphenate rest text').map (text.take size ++ ·)
      | _ => none

theorem dehyphenate_hyphenate {sizes : List Nat} {digits : List Char}
    (h : digits.length = sizes.sum) :
    dehyphenate sizes (hyphenate sizes digits) = some digits := by
  induction sizes generalizing digits with
  | nil => simp_all [hyphenate, dehyphenate]
  | cons size rest ih =>
      cases rest with
      | nil =>
          have hlength : digits.length = size := by simpa using h
          simp [hyphenate, dehyphenate, List.take_of_length_le hlength.le, hlength]
      | cons size' rest =>
          have hlength : (digits.take size).length = size := by
            simp only [List.sum_cons] at h
            simp only [List.length_take]
            omega
          have hrest : (digits.drop size).length = (size' :: rest).sum := by
            simp only [List.sum_cons] at h
            simp only [List.length_drop, List.sum_cons]
            omega
          simp [hyphenate, dehyphenate, List.drop_left' hlength, List.take_left' hlength, ih hrest]

/-- `Uuid::from_u128`: the UUID of a 128-bit number. -/
def fromU128 (number : Nat) : Uuid := ⟨Fin.ofNat (2 ^ 128) number⟩

/-- A UUID as text: lowercase, hyphenated. -/
def toText (id : Uuid) : String :=
  String.ofList (hyphenate groups (Hex.ofNat 32 id.value))

/-- The UUID a text of 32 digits spells. -/
def ofDigits (digits : List Char) : Option Uuid :=
  (Hex.toNat digits).bind fun number =>
    if h : number < 2 ^ 128 then some ⟨number, h⟩ else none

/-- `Uuid::parse_str`: simple, hyphenated, braced, or a URN. -/
def parseStr (text : String) : Option Uuid :=
  let chars := text.toList
  if chars.length = 32 then ofDigits chars
  else if chars.length = 36 then (dehyphenate groups chars).bind ofDigits
  else if chars.length = 38 ∧ chars.head? = some '{' ∧ chars.getLast? = some '}' then
    (dehyphenate groups chars.tail.dropLast).bind ofDigits
  else if chars.length = 45 ∧ chars.take 9 = "urn:uuid:".toList then
    (dehyphenate groups (chars.drop 9)).bind ofDigits
  else none

@[simp]
theorem length_to_text (id : Uuid) : id.toText.toList.length = 36 := by
  simp [toText, groups, hyphenate]

/-- The text of a UUID parses as that UUID. -/
@[simp]
theorem parse_str_to_text (id : Uuid) : parseStr id.toText = some id := by
  have hdigits : ofDigits (Hex.ofNat 32 id.value) = some id := by
    have h := @Hex.to_nat_of_nat 32 id.value
      (lt_of_lt_of_le id.value.isLt (by decide))
    simp [ofDigits, h]
  have hgroups : dehyphenate groups id.toText.toList = some (Hex.ofNat 32 id.value) := by
    rw [toText, String.toList_ofList]
    exact dehyphenate_hyphenate (by simp [groups])
  simp [parseStr, hgroups, hdigits]

/-- Two UUIDs with one text are one UUID. -/
theorem to_text_injective : Function.Injective toText := by
  intro first second h
  have hparse := congrArg parseStr h
  simpa using hparse

end Uuid

/-- The kinds of record that the `uuid_newtype!` macro makes an identifier type for. -/
inductive IdKind where
  | rawRead | acceptedRead | timingEvent | manualEntry | participant | statusDeclaration | race
  | checkpoint
deriving DecidableEq

/-- An identifier of one kind of record: a UUID that cannot be taken for another kind's. -/
@[ext]
structure Id (kind : IdKind) where
  uuid : Uuid
deriving DecidableEq

instance (kind : IdKind) : LinearOrder (Id kind) :=
  LinearOrder.lift' Id.uuid (fun _ _ h => Id.ext h)

/-- Identifiers can be looked up by their order. -/
instance (kind : IdKind) : Std.TransOrd (Id kind) := inferInstance

/-- Identifies a single raw read. Minted at ingest and never reused. -/
abbrev RawReadId := Id .rawRead
/-- Identifies an accepted read. -/
abbrev AcceptedReadId := Id .acceptedRead
/-- Identifies a timing event. -/
abbrev TimingEventId := Id .timingEvent
/-- Identifies a manual entry. -/
abbrev ManualEntryId := Id .manualEntry
/-- Identifies a participant. -/
abbrev ParticipantId := Id .participant
/-- Identifies an operator's status declaration. -/
abbrev StatusDeclarationId := Id .statusDeclaration
/-- Identifies a race within an event. -/
abbrev RaceId := Id .race
/-- Identifies a checkpoint on a course. -/
abbrev CheckpointId := Id .checkpoint

/-- The kinds of name that the `string_newtype!` macro makes a type for. -/
inductive NameKind where
  | reader | chip | bib
deriving DecidableEq

/-- A name of one kind: text that cannot be taken for another kind's. -/
@[ext]
structure Name (kind : NameKind) where
  text : String
deriving DecidableEq

instance (kind : NameKind) : LinearOrder (Name kind) :=
  LinearOrder.lift' Name.text (fun _ _ h => Name.ext h)

/-- Names can be looked up by their order. -/
instance (kind : NameKind) : Std.TransOrd (Name kind) := inferInstance

/-- Identifies a reader. -/
abbrev ReaderId := Name .reader
/-- A chip identifier, normally an EPC in uppercase hex. -/
abbrev ChipId := Name .chip
/-- A competitor's bib number. -/
abbrev Bib := Name .bib

/-- The UUID namespace of every derived identifier. -/
def splitforgeNamespace : Uuid := .fromU128 0x5f17f03e4b2a4c819d6e7a13c5b80921

/-- The ASCII unit separator that joins the parts of a derived name. -/
def unitSeparator : Char := Char.ofNat 0x1f

/-- The text a derived identifier is the hash of. -/
def derivedName (kind : String) (parts : List String) : String :=
  String.ofList (kind.toList ++ parts.flatMap fun part => unitSeparator :: part.toList)

/-- `derived_uuid`: a deterministic identifier from a record kind and its parts. -/
def derivedUuid (newV5 : Uuid → String → Uuid) (kind : String) (parts : List String) : Uuid :=
  newV5 splitforgeNamespace (derivedName kind parts)

end Splitforge.Domain
