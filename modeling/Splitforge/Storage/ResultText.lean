import Splitforge.Domain.Revision
import Splitforge.Library.JsonBlocks
import Splitforge.Library.Rfc3339
import Splitforge.Raceday.Course
import Splitforge.Storage.Serde

/-!
# The text columns of a result

The names that statuses are stored under, and the JSON of a scoring policy, of an entry's flags and
of its timing events. The readers of the JSON take the writers' own text back and are strict about
everything else.
-/

namespace Splitforge.Domain

open Splitforge.Raceday (trim)

/-! ## Names -/

/-- `str::to_ascii_lowercase`, of what `str::trim` leaves. -/
def lowercased (value : String) : String :=
  String.ofList ((trim value).toList.map Char.toLower)

/-- `RevisionStatus::parse`. -/
def RevisionStatus.parse (value : String) : Except String RevisionStatus :=
  match lowercased value with
  | "provisional" => .ok .provisional
  | "final" => .ok .final
  | _ => .error "expected one of: provisional, final"

/-- `ResultStatus::parse`. -/
def ResultStatus.parse (value : String) : Except String ResultStatus :=
  match lowercased value with
  | "finished" => .ok .finished
  | "dns" => .ok .dns
  | "dnf" => .ok .dnf
  | "dq" => .ok .dq
  | _ => .error "expected one of: finished, dns, dnf, dq"

@[simp]
theorem revision_status_parse_as_str (status : RevisionStatus) :
    RevisionStatus.parse status.asStr = .ok status := by
  cases status with
  | provisional => rfl
  | final => rfl

@[simp]
theorem result_status_parse_as_str (status : ResultStatus) :
    ResultStatus.parse status.asStr = .ok status := by
  cases status with
  | finished => rfl
  | dns => rfl
  | dnf => rfl
  | dq => rfl

/-- `ResultFlag::label`: the serde tag. -/
def ResultFlag.label : ResultFlag → String
  | .noStartReadUnderChipTime => "no_start_read_under_chip_time"
  | .noGunTime => "no_gun_time"
  | .finishBeforeStart => "finish_before_start"
  | .declaredFinishedWithoutFinishRead => "declared_finished_without_finish_read"
  | .startReadBeforeGun => "start_read_before_gun"
  | .finishReadBeforeGun => "finish_read_before_gun"
  | .manualStart => "manual_start"
  | .manualFinish => "manual_finish"
  | .manualStartOverChip => "manual_start_over_chip"
  | .manualFinishOverChip => "manual_finish_over_chip"
  | .untrustedDeviceClock => "untrusted_device_clock"
  | .clockStepDuringResult => "clock_step_during_result"

/-- The stored name of a start mode. -/
def StartMode.asStr : StartMode → String
  | .gun => "gun"
  | .chip => "chip"

end Splitforge.Domain

namespace Splitforge.Storage.Results

open Std (ExtTreeMap)
open Splitforge.Domain Splitforge.Library Splitforge.Library.Json

/-- `source_to_str`. -/
def sourceToStr : StatusSource → String
  | .derived => "derived"
  | .declared => "declared"

/-- `parse_source`. -/
def parseSource (debug : String → String) : String → Except StorageError StatusSource
  | "derived" => .ok .derived
  | "declared" => .ok .declared
  | other => .error <| .decode <|
      "status source " ++ debug other ++ ": expected one of: derived, declared"

@[simp]
theorem parse_source_source_to_str (debug : String → String) (source : StatusSource) :
    parseSource debug (sourceToStr source) = .ok source := by
  cases source with
  | derived => rfl
  | declared => rfl

/-! ## Flags and timing events -/

/-- Every flag. -/
def allFlags : List ResultFlag :=
  [.noStartReadUnderChipTime, .noGunTime, .finishBeforeStart, .declaredFinishedWithoutFinishRead,
    .startReadBeforeGun, .finishReadBeforeGun, .manualStart, .manualFinish, .manualStartOverChip,
    .manualFinishOverChip, .untrustedDeviceClock, .clockStepDuringResult]

/-- The label of a flag is no other flag's. -/
theorem find_flag (flag : ResultFlag) :
    (allFlags.find? fun other => other.label = flag.label) = some flag := by
  cases flag <;> rfl

/-- A flag: an object with its tag. -/
def flagBlock : Block ResultFlag :=
  object (named "flag" (words ResultFlag.label allFlags find_flag).form)

/-- Flags as JSON. -/
def flagsBlock : Block (List ResultFlag) := array flagBlock (object_head_ne _)

/-- An identifier: the text of its UUID. -/
def idBlock (kind : IdKind) : Block (Id kind) :=
  stringBlock.via (fun id => id.uuid.toText) (fun text => (Uuid.parseStr text).map Id.mk)
    fun id => by rw [Uuid.parse_str_to_text, Option.map_some]

/-- Timing events as JSON. -/
def eventsBlock : Block (List TimingEventId) :=
  array (idBlock .timingEvent) (via_head_ne _ _ _ string_head_ne)

/-! ## Scoring policies -/

theorem find_start_mode (mode : StartMode) :
    ([StartMode.gun, .chip].find? fun other => other.asStr = mode.asStr) =
      some mode := by
  cases mode <;> rfl

/-- What an override says, in the numbers it is written with. -/
structure CheckpointRecord where
  minIntervalMs : Option UInt64
  selectionRule : Option SelectionRule
deriving DecidableEq

/-- What a timing policy says, with its checkpoints as text and in their order. -/
structure TimingRecord where
  minIntervalMs : UInt64
  selectionRule : SelectionRule
  minLapMs : Option UInt64
  perCheckpoint : List (String × CheckpointRecord)
deriving DecidableEq

/-- What a scoring policy says, with its instant as text. -/
structure PolicyRecord where
  startMode : StartMode
  timing : TimingRecord
  gunTime : Option String
deriving DecidableEq

/-- The members of a selection rule: its tag, and the floor of the one that has one. -/
def writeRule : SelectionRule → List UInt8
  | .first => writeObject (named "rule" string) "first"
  | .firstAboveRssi floorDbm =>
      writeObject (pair (named "rule" string) (named "floor_dbm" i16))
        ("first_above_rssi", floorDbm)
  | .peakRssi => writeObject (named "rule" string) "peak_rssi"

/-- Reads a selection rule by its tag. -/
def readRule (text : List UInt8) : Option (SelectionRule × List UInt8) := do
  let text ← strip [0x7b] text
  let (tag, text) ← (named "rule" string).read text
  match tag with
  | "first" => (strip [0x7d] text).map fun text => (.first, text)
  | "first_above_rssi" => do
      let text ← strip [comma] text
      let (floorDbm, text) ← (named "floor_dbm" i16).read text
      let text ← strip [0x7d] text
      pure (.firstAboveRssi floorDbm, text)
  | "peak_rssi" => (strip [0x7d] text).map fun text => (.peakRssi, text)
  | _ => none

theorem read_rule_write_rule (rule : SelectionRule) (rest : List UInt8) :
    readRule (writeRule rule ++ rest) = some (rule, rest) := by
  have htag := fun (tag : String) (stop : UInt8) (rest : List UInt8) (hstop : IsStop stop) =>
    (named "rule" string).read_write tag stop rest hstop
  cases rule with
  | first =>
      simp [writeRule, readRule, writeObject, strip, htag _ 0x7d _ (Or.inr rfl)]
  | firstAboveRssi floorDbm =>
      have hfloor := (named "floor_dbm" i16).read_write floorDbm 0x7d rest (Or.inr rfl)
      simp [writeRule, readRule, writeObject, pair, strip, htag _ 0x2c _ (Or.inl rfl), hfloor,
        comma]
  | peakRssi =>
      simp [writeRule, readRule, writeObject, strip, htag _ 0x7d _ (Or.inr rfl)]

/-- A selection rule. -/
def ruleBlock : Block SelectionRule :=
  .of writeRule readRule read_rule_write_rule fun rule => by
    cases rule with
    | first => exact clean_write_object _ _
    | firstAboveRssi floorDbm => exact clean_write_object _ _
    | peakRssi => exact clean_write_object _ _

/-- A selection rule is not written like `null`. -/
theorem rule_head (rule : SelectionRule) : (ruleBlock.form.write rule).head? ≠ Json.null.head? := by
  have hbrace : (ruleBlock.form.write rule).head? = some 0x7b := by
    cases rule <;> rfl
  rw [hbrace, Json.null_eq]
  decide

theorem u64_head (value : UInt64) : (u64.write value).head? ≠ Json.null.head? :=
  decimal_head _

/-- A `u64` or `null`. -/
def optionalU64 : Form (Option UInt64) := optional u64 u64_head

/-- An override. -/
def checkpointBlock : Block CheckpointRecord :=
  object <| Form.via
    (pair (named "min_interval_ms" optionalU64)
      (named "selection_rule" (optional ruleBlock.form rule_head)))
    (fun record => (record.minIntervalMs, record.selectionRule))
    (fun (minIntervalMs, selectionRule) => some ⟨minIntervalMs, selectionRule⟩)
    fun _ => rfl

/-- A timing policy. -/
def timingBlock : Block TimingRecord :=
  object <| Form.via
    (pair (named "min_interval_ms" u64) <| pair (named "selection_rule" ruleBlock.form) <|
      pair (named "min_lap_ms" optionalU64) (named "per_checkpoint" (map checkpointBlock).form))
    (fun record =>
      (record.minIntervalMs, record.selectionRule, record.minLapMs, record.perCheckpoint))
    (fun (minIntervalMs, selectionRule, minLapMs, perCheckpoint) =>
      some ⟨minIntervalMs, selectionRule, minLapMs, perCheckpoint⟩)
    fun _ => rfl

/-- A scoring policy. -/
def policyBlock : Block PolicyRecord :=
  object <| Form.via
    (pair (named "start_mode" (words StartMode.asStr [.gun, .chip] find_start_mode).form) <|
      pair (named "timing" timingBlock.form) (named "gun_time" (optional string string_head)))
    (fun record => (record.startMode, record.timing, record.gunTime))
    (fun (startMode, timing, gunTime) => some ⟨startMode, timing, gunTime⟩)
    fun _ => rfl

/-! ## From policies and back -/

/-- The override as it is written. -/
def checkpointRecord (override : CheckpointPolicy) : CheckpointRecord where
  minIntervalMs := override.minIntervalMs.map UInt64.ofNat
  selectionRule := override.selectionRule

/-- The override that was written. -/
def CheckpointRecord.policy (record : CheckpointRecord) : CheckpointPolicy where
  minIntervalMs := record.minIntervalMs.map UInt64.toNat
  selectionRule := record.selectionRule

/-- The timing policy as it is written. -/
def timingRecord (policy : TimingPolicy) : TimingRecord where
  minIntervalMs := .ofNat policy.minIntervalMs
  selectionRule := policy.selectionRule
  minLapMs := policy.minLapMs.map UInt64.ofNat
  perCheckpoint := policy.perCheckpoint.toList.map fun entry =>
    (entry.1.uuid.toText, checkpointRecord entry.2)

/-- A checkpoint's override, by its text. -/
def readCheckpoint (entry : String × CheckpointRecord) : Option (CheckpointId × CheckpointPolicy) :=
  (Uuid.parseStr entry.1).map fun uuid => (⟨uuid⟩, entry.2.policy)

/-- The timing policy that was written. -/
def TimingRecord.policy (record : TimingRecord) : Option TimingPolicy :=
  (record.perCheckpoint.mapM readCheckpoint).map fun perCheckpoint =>
    { minIntervalMs := record.minIntervalMs.toNat
      selectionRule := record.selectionRule
      minLapMs := record.minLapMs.map UInt64.toNat
      perCheckpoint := ExtTreeMap.ofList perCheckpoint }

/-- A gun as RFC 3339 text, at an offset from UTC in seconds. -/
def writeGun (gunOffset : Int) (gun : OffsetDateTime) : Except String String :=
  match Rfc3339.format gun.nanos gunOffset with
  | .ok text => .ok (String.ofList text)
  | .error component => .error
      ("The " ++ component ++ " component cannot be formatted into the requested format.")

/-- A gun from its text. -/
def readGun (text : String) : Option OffsetDateTime :=
  (Rfc3339.parse text.toList).bind OffsetDateTime.fromUnixTimestampNanos

/-- `serde_json::to_string` of a scoring policy, whose gun stands at an offset from UTC. -/
def policyToString (gunOffset : Int) (policy : ScoringPolicy) : Except String String :=
  (policy.gunTime.mapM (writeGun gunOffset)).map fun gunTime =>
    writeText policyBlock ⟨policy.startMode, timingRecord policy.timing, gunTime⟩

/-- The scoring policy that was written. -/
def PolicyRecord.policy (record : PolicyRecord) : Option ScoringPolicy := do
  let timing ← record.timing.policy
  let gunTime ← record.gunTime.mapM readGun
  some ⟨record.startMode, timing, gunTime⟩

/-- `serde_json::from_str` of a scoring policy. -/
def policyFromStr (text : String) : Option ScoringPolicy :=
  (readText policyBlock text).bind PolicyRecord.policy

/-- The intervals of a policy fit `u64`. -/
structure PolicyFits (policy : TimingPolicy) : Prop where
  minIntervalMs : policy.minIntervalMs < 2 ^ 64
  minLapMs : ∀ ms ∈ policy.minLapMs, ms < 2 ^ 64
  perCheckpoint : ∀ entry ∈ policy.perCheckpoint.toList, ∀ ms ∈ entry.2.minIntervalMs, ms < 2 ^ 64

theorem to_nat_of_nat {number : Nat} (h : number < 2 ^ 64) : (UInt64.ofNat number).toNat = number :=
  UInt64.toNat_ofNat_of_lt' h

theorem map_to_nat_map_of_nat {number : Option Nat} (h : ∀ ms ∈ number, ms < 2 ^ 64) :
    (number.map UInt64.ofNat).map UInt64.toNat = number := by
  cases number with
  | none => rfl
  | some ms =>
      have hms := h ms rfl
      rw [Option.map_some, Option.map_some, to_nat_of_nat hms]

instance : Std.LawfulEqCmp (compare : CheckpointId → CheckpointId → Ordering) where
  eq_of_compare h := compare_eq_iff_eq.mp h

/-- A map is that of its own entries. -/
theorem of_list_to_list (overrides : ExtTreeMap CheckpointId CheckpointPolicy) :
    ExtTreeMap.ofList overrides.toList = overrides := by
  apply ExtTreeMap.ext_getElem?
  intro checkpoint
  cases hlookup : overrides[checkpoint]? with
  | some override =>
      have hmem := ExtTreeMap.mem_toList_iff_getElem?_eq_some.mpr hlookup
      exact ExtTreeMap.getElem?_ofList_of_mem Std.ReflCmp.compare_self
        ExtTreeMap.distinct_keys_toList hmem
  | none =>
      apply ExtTreeMap.getElem?_ofList_of_contains_eq_false
      rw [Bool.eq_false_iff]
      intro hcontains
      rw [List.contains_iff_mem] at hcontains
      obtain ⟨⟨_, override⟩, hmem, rfl⟩ := List.mem_map.mp hcontains
      rw [ExtTreeMap.mem_toList_iff_getElem?_eq_some] at hmem
      rw [hlookup] at hmem
      cases hmem

/-- The overrides of a policy are read back. -/
theorem map_m_read_checkpoint {entries : List (CheckpointId × CheckpointPolicy)}
    (h : ∀ entry ∈ entries, ∀ ms ∈ entry.2.minIntervalMs, ms < 2 ^ 64) :
    (entries.map fun entry => (entry.1.uuid.toText, checkpointRecord entry.2)).mapM
      readCheckpoint = some entries := by
  induction entries with
  | nil => rfl
  | cons entry entries ih =>
      have hms := map_to_nat_map_of_nat (h entry List.mem_cons_self)
      have hentry :
          readCheckpoint (entry.1.uuid.toText, checkpointRecord entry.2) = some entry := by
        rw [readCheckpoint, Uuid.parse_str_to_text, Option.map_some, checkpointRecord,
          CheckpointRecord.policy, hms]
      rw [List.map_cons, List.mapM_cons, hentry,
        ih fun other hother => h other (List.mem_cons_of_mem _ hother)]
      rfl

/-- A timing policy is read back. -/
theorem policy_timing_record {policy : TimingPolicy} (h : PolicyFits policy) :
    (timingRecord policy).policy = some policy := by
  have hread : (timingRecord policy).perCheckpoint.mapM readCheckpoint =
      some policy.perCheckpoint.toList := map_m_read_checkpoint h.perCheckpoint
  rw [TimingRecord.policy, hread, Option.map_some, of_list_to_list]
  simp only [timingRecord, to_nat_of_nat h.minIntervalMs, map_to_nat_map_of_nat h.minLapMs]

/-- A gun is read back. -/
theorem read_gun_write_gun {gunOffset : Int} {gun : OffsetDateTime} {text : String}
    (h : writeGun gunOffset gun = .ok text) : readGun text = some gun := by
  unfold writeGun at h
  cases hformat : Rfc3339.format gun.nanos gunOffset with
  | error component =>
      rw [hformat] at h
      cases h
  | ok chars =>
      rw [hformat] at h
      injection h with h
      rw [← h, readGun, String.toList_ofList, Rfc3339.parse_format hformat, Option.bind_some,
        OffsetDateTime.fromUnixTimestampNanos, dif_pos ⟨gun.lower, gun.upper⟩]

/-- A scoring policy is read back from its JSON. -/
theorem policy_from_str_policy_to_string {gunOffset : Int} {policy : ScoringPolicy} {text : String}
    (h : policyToString gunOffset policy = .ok text) (hfits : PolicyFits policy.timing) :
    policyFromStr text = some policy := by
  obtain ⟨startMode, timing, gunTime⟩ := policy
  have htiming := policy_timing_record hfits
  have hread : ∀ gunText, gunText.mapM readGun = some gunTime →
      policyFromStr (writeText policyBlock ⟨startMode, timingRecord timing, gunText⟩) =
        some ⟨startMode, timing, gunTime⟩ := by
    intro gunText hgun
    rw [policyFromStr, read_text_write_text, Option.bind_some, PolicyRecord.policy, htiming, hgun]
    rfl
  unfold policyToString at h
  cases gunTime with
  | none =>
      injection h with h
      rw [← h]
      exact hread none rfl
  | some gun =>
      rw [Option.mapM_some] at h
      cases hgun : writeGun gunOffset gun with
      | error error =>
          rw [hgun] at h
          cases h
      | ok gunText =>
          rw [hgun] at h
          injection h with h
          rw [← h]
          refine hread (some gunText) ?_
          rw [Option.mapM_some, read_gun_write_gun hgun]
          rfl

end Splitforge.Storage.Results
