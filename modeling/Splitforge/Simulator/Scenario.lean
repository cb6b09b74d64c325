import Splitforge.Library.Sorting
import Splitforge.Library.Utf8
import Splitforge.Reader.Ingest
import Mathlib.Data.Prod.Lex

/-!
# Scripted races

A scenario plans who crosses which antenna when. Each crossing becomes a burst of reads around its
instant, whose number, spacing and strengths are drawn from a generator with a fixed seed, and the
bursts together are the script a simulated reader plays. Arithmetic on instants that leaves the
range of the `time` crate panics, and gives no script here.
-/

namespace Splitforge.Simulator

open Splitforge.Domain Splitforge.Library Splitforge.Thingmagic

/-! ## Random numbers -/

/-- `i64::checked_sub`. -/
def checkedSub (first second : Int) : Option Int :=
  if i64Min ≤ first - second ∧ first - second ≤ i64Max then some (first - second) else none

/-- `i64::saturating_add`. -/
def saturatingAdd (first second : Int) : Int := max i64Min (min i64Max (first + second))

/-- SplitMix64. -/
structure Rng where
  state : UInt64

/-- `Rng::next_u64`. -/
def Rng.nextU64 (rng : Rng) : UInt64 × Rng :=
  let state := rng.state + 0x9E3779B97F4A7C15
  let z := (state ^^^ (state >>> 30)) * 0xBF58476D1CE4E5B9
  let z := (z ^^^ (z >>> 27)) * 0x94D049BB133111EB
  (z ^^^ (z >>> 31), ⟨state⟩)

/-- `Rng::range`: a value in `low..=high`, or `low` if the range is inverted. -/
def Rng.range (rng : Rng) (low high : Int) : Int × Rng :=
  match (checkedSub high low).filter (0 < ·) with
  | none => (low, rng)
  | some span =>
      let span := min (span.toNat + 1) (2 ^ 64 - 1)
      let (value, rng) := rng.nextU64
      let drawn := value.toNat % span
      let offset : Int := if (drawn : Int) ≤ i64Max then drawn else 0
      (saturatingAdd low offset, rng)

/-! ## Bursts -/

/-- The shape of the burst a crossing produces. -/
structure BurstProfile where
  minReads : UInt32
  maxReads : UInt32
  minSpacingMs : Int64
  maxSpacingMs : Int64
  peakRssiDbm : Int16
  rssiSpreadDb : Int16
  rssiJitterDb : Int16

/-- `BurstProfile::default`: a runner clearing a mat. -/
def BurstProfile.standard : BurstProfile := ⟨14, 46, 22, 58, -47, 26, 2⟩

/-- One chip passing one antenna, closest at one instant. -/
structure Crossing where
  chip : ChipId
  antenna : Option UInt16
  «at» : OffsetDateTime
deriving DecidableEq

/-- One synthetic read. -/
structure ScriptedRead where
  «at» : OffsetDateTime
  message : ReaderMessage

/-- A planned race. -/
structure Scenario where
  reader : ReaderId
  profile : BurstProfile
  seed : UInt64
  crossings : List Crossing

/-- An instant and a duration later, where that is an instant. -/
def plus (at' : OffsetDateTime) (duration : Duration) : Option OffsetDateTime :=
  OffsetDateTime.fromUnixTimestampNanos (at'.nanos + duration.nanos)

/-- The bytes of a number in so many bytes, the greatest first. -/
def bigEndian : Nat → Nat → List UInt8
  | 0, _ => []
  | count + 1, number => bigEndian count (number / 256) ++ [UInt8.ofNat (number % 256)]

/-- `synthetic_frame`: the bytes a synthetic reader sent. -/
def syntheticFrame (chip : ChipId) (antenna : Option UInt16) (rssiDbm : Int16)
    (at' : OffsetDateTime) : List UInt8 :=
  let text := Utf8.encode chip.text
  Utf8.encode "SFSIM" ++ [0x01] ++ bigEndian 2 (antenna.getD 0).toNat ++
    bigEndian 2 rssiDbm.toUInt16.toNat ++
    bigEndian 8 (Int64.ofInt (i64OrMax (at'.nanos / 1000))).toUInt64.toNat ++
    bigEndian 2 (min text.length 65535) ++ text

/-- How many reads a burst has. -/
def BurstProfile.count (profile : BurstProfile) (rng : Rng) : Nat × Rng :=
  let (count, rng) := rng.range (max profile.minReads.toNat 1) (max profile.maxReads.toNat 1)
  (max count.toNat 1, rng)

/-- The first loop of `burst`: the offsets of so many reads from the first, in milliseconds. -/
def BurstProfile.offsetsMs (profile : BurstProfile) : Nat → Int → Rng → List Int × Rng
  | 0, _, rng => ([], rng)
  | count + 1, elapsed, rng =>
      let (spacing, rng) := rng.range profile.minSpacingMs.toInt profile.maxSpacingMs.toInt
      let (offsets, rng) := profile.offsetsMs count (saturatingAdd elapsed spacing) rng
      (elapsed :: offsets, rng)

/-- The strength of the read at a place of a burst. It ramps to the peak at closest approach and
falls away again. -/
def BurstProfile.rssi (profile : BurstProfile) (span position jitter : Int) : Int16 :=
  let fromCentre := magnitude (2 * position - span)
  let falloff := (profile.rssiSpreadDb.toInt * fromCentre).tdiv span
  let rssi := profile.peakRssiDbm.toInt - falloff + jitter
  if -32768 ≤ rssi ∧ rssi ≤ 32767 then .ofInt rssi else Int16.minValue

/-- The read of a crossing at an instant, with a strength. -/
def Scenario.read (scenario : Scenario) (crossing : Crossing) (rssiDbm : Int16)
    (at' : OffsetDateTime) : ScriptedRead where
  «at» := at'
  message :=
    { source := scenario.reader
      antenna := crossing.antenna
      chip := crossing.chip
      timestamp := .utc at'
      rssiDbm := some rssiDbm
      rawPayload := syntheticFrame crossing.chip crossing.antenna rssiDbm at' }

/-- The second loop of `burst`: the reads at some offsets, from a place on. -/
def Scenario.reads (scenario : Scenario) (crossing : Crossing) (span centre : Int) :
    Int → List Int → Rng → Option (List ScriptedRead × Rng)
  | _, [], rng => some ([], rng)
  | position, offset :: offsets, rng => do
      let jitterDb := scenario.profile.rssiJitterDb.toInt
      let (jitter, rng) := rng.range (-jitterDb) jitterDb
      let rssiDbm := scenario.profile.rssi span position jitter
      let at' ← plus crossing.at (.milliseconds (offset - centre))
      let (reads, rng) ← scenario.reads crossing span centre (position + 1) offsets rng
      pure (scenario.read crossing rssiDbm at' :: reads, rng)

/-- `Scenario::burst`: the stream of reads a crossing produces. -/
def Scenario.burst (scenario : Scenario) (crossing : Crossing) (rng : Rng) :
    Option (List ScriptedRead × Rng) :=
  let (count, rng) := scenario.profile.count rng
  let (offsets, rng) := scenario.profile.offsetsMs count 0 rng
  -- the peak of the burst is at the crossing's instant, not its first read
  let centre := (offsets[(count - 1) / 2]?).getD 0
  let span : Int := max (count - 1 : Nat) 1
  scenario.reads crossing span centre 0 offsets rng

/-- The loop of `script` over the crossings. -/
def Scenario.bursts (scenario : Scenario) : List Crossing → Rng → Option (List (List ScriptedRead))
  | [], _ => some []
  | crossing :: crossings, rng => do
      let (burst, rng) ← scenario.burst crossing rng
      let bursts ← scenario.bursts crossings rng
      pure (burst :: bursts)

/-- The order crossings are expanded in: by instant, then by chip. -/
def Crossing.key (crossing : Crossing) : OffsetDateTime ×ₗ ChipId :=
  toLex (crossing.at, crossing.chip)

/-- The order reads are played in: by instant, then by chip. -/
def ScriptedRead.key (read : ScriptedRead) : OffsetDateTime ×ₗ ChipId :=
  toLex (read.at, read.message.chip)

/-- The crossings in the order they are expanded in. -/
def Scenario.ordered (scenario : Scenario) : List Crossing :=
  sortByKey Crossing.key scenario.crossings

/-- `Scenario::script`: every crossing's burst, in chronological order. -/
def Scenario.script (scenario : Scenario) : Option (List ScriptedRead) :=
  (scenario.bursts scenario.ordered ⟨scenario.seed⟩).map fun bursts =>
    sortByKey ScriptedRead.key bursts.flatten

end Splitforge.Simulator
