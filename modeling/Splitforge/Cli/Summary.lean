import Splitforge.Domain.Policy
import Mathlib.Data.List.Sort
import Mathlib.Data.Prod.Lex
import Mathlib.Order.Lattice.Nat

/-!
# The journal, counted

What the diagnosis and the bundle need to know about the whole journal, in one pass over its reads.
A renaming of the chips changes nothing but the chips that are listed.
-/

namespace Splitforge.Cli

open Splitforge.Domain
open Std (ExtTreeMap)

/-- How many sequence gaps are named. The rest are counted. -/
def gapsNamed : Nat := 5

/-- One reader and antenna that reads came from. -/
structure Source where
  reader : ReaderId
  antenna : Option UInt16
deriving DecidableEq

/-- The derived order: by reader, and no antenna before every antenna. -/
def Source.key (source : Source) : ReaderId ×ₗ Bool ×ₗ Nat :=
  toLex (source.reader, toLex (source.antenna.isSome, (source.antenna.map UInt16.toNat).getD 0))

theorem Source.key_injective : Function.Injective Source.key := by
  intro ⟨reader, antenna⟩ ⟨reader', antenna'⟩ h
  obtain ⟨hreader, hantenna⟩ := Prod.ext_iff.mp (toLex.injective h)
  obtain ⟨hsome, hnumber⟩ := Prod.ext_iff.mp (toLex.injective hantenna)
  have hreader : reader = reader' := hreader
  subst hreader
  cases antenna with
  | none =>
      cases antenna' with
      | none => rfl
      | some antenna' => cases hsome
  | some antenna =>
      cases antenna' with
      | none => cases hsome
      | some antenna' =>
          have hnumber : antenna.toNat = antenna'.toNat := hnumber
          rw [UInt16.toNat_inj.mp hnumber]

instance : LinearOrder Source := LinearOrder.lift' Source.key Source.key_injective

/-- Sources can be looked up by their order. -/
instance : Std.TransOrd Source := inferInstance

/-- The journal, counted. -/
structure JournalSummary where
  reads : Nat
  firstSeq : Option Nat
  lastSeq : Option Nat
  gapCount : Nat
  firstGapsAfter : List Nat
  firstReadAt : Option OffsetDateTime
  lastReadAt : Option OffsetDateTime
  untrustedClockReads : Nat
  deviceTimedReads : Nat
  maxClockOffsetMs : Option Int64
  sources : List Source
  readsBySource : ExtTreeMap Source Nat
  chips : List ChipId

/-- Nothing counted yet. -/
def JournalSummary.empty : JournalSummary :=
  ⟨0, none, none, 0, [], none, none, 0, 0, none, [], ∅, []⟩

/-- Whether a read skips a number of the sequence. -/
def JournalSummary.skips (summary : JournalSummary) (stored : StoredRawRead) : Bool :=
  summary.lastSeq.any fun last => stored.seq ≠ last + 1

/-- `JournalSummary::add`: one more read. The chips stand in their order, once each. -/
def JournalSummary.add (summary : JournalSummary) (stored : StoredRawRead) : JournalSummary :=
  let read := stored.read
  let at' := read.authoritativeTimestamp
  let source : Source := ⟨read.source, read.antenna⟩
  { reads := summary.reads + 1
    firstSeq := some (summary.firstSeq.getD stored.seq)
    lastSeq := some stored.seq
    gapCount := if summary.skips stored then summary.gapCount + 1 else summary.gapCount
    firstGapsAfter :=
      if summary.skips stored ∧ summary.firstGapsAfter.length < gapsNamed then
        summary.firstGapsAfter ++ summary.lastSeq.toList
      else summary.firstGapsAfter
    firstReadAt := some (summary.firstReadAt.elim at' (min · at'))
    lastReadAt := some (summary.lastReadAt.elim at' (max · at'))
    untrustedClockReads :=
      if read.deviceClockState.isTrustworthy then summary.untrustedClockReads
      else summary.untrustedClockReads + 1
    deviceTimedReads :=
      if read.readerTimestamp.isNone then summary.deviceTimedReads + 1
      else summary.deviceTimedReads
    maxClockOffsetMs :=
      match read.clockOffsetMs with
      | none => summary.maxClockOffsetMs
      | some offset =>
          some (summary.maxClockOffsetMs.elim offset fun largest =>
            if largest.abs < offset.abs then offset else largest)
    sources :=
      if summary.readsBySource[source]?.isSome then summary.sources
      else summary.sources ++ [source]
    readsBySource :=
      summary.readsBySource.insert source ((summary.readsBySource[source]?).getD 0 + 1)
    chips :=
      if read.chip ∈ summary.chips then summary.chips
      else summary.chips.orderedInsert (· ≤ ·) read.chip }

/-- `JournalSummary::of`: all reads of a journal, counted one at a time. -/
def JournalSummary.of (reads : List StoredRawRead) : JournalSummary :=
  reads.foldl JournalSummary.add .empty

/-- The chips of a summary are those of the reads. -/
theorem mem_reads_of_chip {reads : List StoredRawRead} {chip : ChipId}
    (h : chip ∈ (JournalSummary.of reads).chips) : ∃ stored ∈ reads, stored.read.chip = chip := by
  have hrun : ∀ {summary : JournalSummary}, chip ∈ (reads.foldl JournalSummary.add summary).chips →
      chip ∈ summary.chips ∨ ∃ stored ∈ reads, stored.read.chip = chip := by
    clear h
    induction reads with
    | nil => exact Or.inl
    | cons stored reads ih =>
        intro summary hmem
        rcases ih hmem with hadded | ⟨other, hother, hchip⟩
        · simp only [JournalSummary.add] at hadded
          split_ifs at hadded with hseen
          · exact Or.inl hadded
          · rcases List.mem_cons.mp ((List.perm_orderedInsert _ _ _).mem_iff.mp hadded) with
              hnew | hold
            · exact Or.inr ⟨stored, List.mem_cons_self, hnew.symm⟩
            · exact Or.inl hold
        · exact Or.inr ⟨other, List.mem_cons_of_mem _ hother, hchip⟩
  exact (hrun h).resolve_left List.not_mem_nil

/-! ## Renaming the chips -/

/-- A read and the same read of the chip under another identifier, in whatever bytes it came. -/
def SameRead (rename : ChipId → ChipId) (first second : StoredRawRead) : Prop :=
  ∃ rawPayload payloadSha256, second =
    { first with payloadSha256, read :=
      { first.read with rawPayload, chip := rename first.read.chip } }

/-- Two summaries that differ in the chips alone, which are renamed. -/
structure SameCounts (rename : ChipId → ChipId) (first second : JournalSummary) : Prop where
  counts : ∃ chips, second = { first with chips }
  chips : second.chips.Perm (first.chips.map rename)
  nodup : first.chips.Nodup

variable {rename : ChipId → ChipId}

/-- Counting one more read keeps the summaries alike. -/
theorem SameCounts.add (hrename : Function.Injective rename) {first second : JournalSummary}
    (h : SameCounts rename first second) {stored stored' : StoredRawRead}
    (hread : SameRead rename stored stored') :
    SameCounts rename (first.add stored) (second.add stored') := by
  obtain ⟨⟨chips, rfl⟩, hperm, hnodup⟩ := h
  obtain ⟨rawPayload, payloadSha256, rfl⟩ := hread
  have hmem : rename stored.read.chip ∈ chips ↔ stored.read.chip ∈ first.chips := by
    rw [hperm.mem_iff, List.mem_map_of_injective hrename]
  refine ⟨⟨_, rfl⟩, ?_, ?_⟩
  · simp only [JournalSummary.add]
    by_cases hseen : stored.read.chip ∈ first.chips
    · rw [if_pos hseen, if_pos (hmem.mpr hseen)]
      exact hperm
    · rw [if_neg hseen, if_neg fun hchip => hseen (hmem.mp hchip)]
      refine (List.perm_orderedInsert _ _ _).trans ?_
      exact (hperm.cons _).trans ((List.perm_orderedInsert _ _ _).map rename).symm
  · simp only [JournalSummary.add]
    split_ifs with hseen
    · exact hnodup
    · rw [(List.perm_orderedInsert _ _ _).nodup_iff]
      exact List.nodup_cons.mpr ⟨hseen, hnodup⟩

/-- Journals that differ in the names of the chips are counted alike. -/
theorem same_counts_of (hrename : Function.Injective rename) {reads reads' : List StoredRawRead}
    (h : List.Forall₂ (SameRead rename) reads reads') :
    SameCounts rename (.of reads) (.of reads') := by
  have hrun : ∀ {first second : JournalSummary}, SameCounts rename first second →
      SameCounts rename (reads.foldl JournalSummary.add first)
        (reads'.foldl JournalSummary.add second) := by
    induction h with
    | nil => exact fun hcounts => hcounts
    | cons hread _ ih => exact fun hcounts => ih (hcounts.add hrename hread)
  exact hrun ⟨⟨[], rfl⟩, .nil, List.nodup_nil⟩

end Splitforge.Cli
