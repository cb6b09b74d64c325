import Splitforge.Library.Calendar
import Splitforge.Library.Decimal
import Splitforge.Library.Lines
import Splitforge.Storage.Connection
import Splitforge.Thingmagic.Replay

/-!
# The text of a capture

A record is a line of a capture, behind a comment when records were dropped before it. Reading a
capture back counts what its lines say, and hands the bytes received to the reassemblers. What the
text of some records comes to is said of the records themselves.
-/

namespace Splitforge.Thingmagic

open Splitforge.Domain Splitforge.Library Splitforge.Library.Calendar
open Splitforge.Storage (wholeMicros)

/-! ## Writing -/

/-- `Record`: one line of the capture, as taken on the thread that saw it happen. The offset is in
nanoseconds. -/
structure Record where
  takenAt : OffsetDateTime
  since : Nat
  event : Event
  droppedBefore : UInt64
deriving DecidableEq

/-- A year with at least four digits. -/
def yearText (year : Int) : List Char :=
  (if year < 0 then ['-'] else []) ++ padded 4 year.natAbs

/-- `timestamp`: an instant in UTC, down to the microsecond. -/
def timestamp (at' : OffsetDateTime) : List Char :=
  let time := DateTime.ofNanos at'.nanos
  yearText time.date.year ++ '-' :: padded 2 time.date.month ++ '-' :: padded 2 time.date.day ++
    'T' :: padded 2 time.hour ++ ':' :: padded 2 time.minute ++ ':' :: padded 2 time.second ++
      '.' :: padded 6 (time.nanosecond / 1000) ++ ['Z']

/-- `one_line`. -/
def oneLine (text : List Char) : List Char :=
  text.map fun c => if c = '\n' ∨ c = '\r' then ' ' else c

/-- What a line says happened. -/
def Event.what : Event → List Char
  | .opened => "open".toList
  | .openFailed reason => "fail ".toList ++ oneLine reason.toList
  | .sent bytes => "> ".toList ++ Hex.encode bytes
  | .received bytes => "< ".toList ++ Hex.encode bytes
  | .error reason => "error ".toList ++ oneLine reason.toList
  | .eof => "eof".toList
  | .close => "close".toList

/-- The microseconds of a record's offset. -/
def Record.micros (record : Record) : Nat := record.since / 1000

/-- The offset of a record, in milliseconds. -/
def offsetText (micros : Nat) : List Char :=
  '+' :: (Nat.toDigits 10 (micros / 1000) ++ '.' :: padded 3 (micros % 1000) ++ "ms".toList)

/-- The comment of a record behind dropped ones. -/
def Record.comment (record : Record) : List Char :=
  "# ".toList ++ (Nat.toDigits 10 record.droppedBefore.toNat ++
    (" record(s) dropped".toList ++ " before the next: the writer fell behind".toList))

/-- The line of a record. -/
def Record.text (record : Record) : List Char :=
  timestamp record.takenAt ++ ' ' :: (offsetText record.micros ++ ' ' :: record.event.what)

/-- `line`: one record as its line or lines. -/
def line (record : Record) : List Char :=
  (if 0 < record.droppedBefore then record.comment ++ ['\n'] else []) ++ record.text ++ ['\n']

/-! ## Reading -/

/-- Takes a character off the front. -/
def takeChar (expected : Char) : List Char → Option (List Char)
  | c :: text => if c = expected then some text else none
  | [] => none

/-- A year of four digits, behind a sign or none. -/
def takeYear : List Char → Option (Int × List Char)
  | '-' :: text => (takeDigits 4 text).map fun (year, text) => (-year, text)
  | '+' :: text => (takeDigits 4 text).map fun (year, text) => (year, text)
  | text => (takeDigits 4 text).map fun (year, text) => (year, text)

/-- `parse_timestamp`: the inverse of `timestamp`. -/
def parseTimestamp (text : List Char) : Option OffsetDateTime := do
  let text ← ['Z'].isSuffixOf? text
  let (year, text) ← takeYear text
  let (month, text) ← takeDigits 2 (← takeChar '-' text)
  let (day, text) ← takeDigits 2 (← takeChar '-' text)
  let (hour, text) ← takeDigits 2 (← takeChar 'T' text)
  let (minute, text) ← takeDigits 2 (← takeChar ':' text)
  let (second, text) ← takeDigits 2 (← takeChar ':' text)
  let (micros, text) ← takeDigits 6 (← takeChar '.' text)
  guard (text = [])
  let nanos ← DateTime.toNanos ⟨⟨year, month, day⟩, hour, minute, second, micros * 1000⟩
  OffsetDateTime.fromUnixTimestampNanos nanos

/-- `parse_offset`: a record's monotonic offset, in microseconds. -/
def parseOffset (text : List Char) : Option Nat := do
  let text ← ['+'].isPrefixOf? text
  let text ← "ms".toList.isSuffixOf? text
  let (millis, micros) ← splitOnce '.' text
  guard (micros.length = 3)
  let millis ← parseUnsigned (2 ^ 64) millis
  let micros ← parseUnsigned (2 ^ 64) micros
  let total := millis * 1000 + micros
  guard (total < 2 ^ 64)
  pure total

/-- Two digits as a byte: `u8::from_str_radix`, which takes a plus sign for the first. -/
def pairValue (high low : Char) : Option UInt8 :=
  if high = '+' then (Hex.digitValue low).map UInt8.ofNat
  else do
    let high ← Hex.digitValue high
    let low ← Hex.digitValue low
    pure (UInt8.ofNat (16 * high + low))

/-- `unhex`. -/
def unhex : List Char → Option (List UInt8)
  | [] => some []
  | [_] => none
  | high :: low :: rest => do
      let byte ← pairValue high low
      let bytes ← unhex rest
      pure (byte :: bytes)

/-- `Replay`: what reading a capture back found, besides what the frames come to. -/
@[ext]
structure Replay where
  connections : UInt64
  firstAt : Option OffsetDateTime
  lastAt : Option OffsetDateTime
  sentBytes : UInt64
  receivedBytes : UInt64
  droppedRecords : UInt64
  unreadableLines : UInt64
deriving DecidableEq

/-- Nothing found yet. -/
def Replay.empty : Replay := ⟨0, none, none, 0, 0, 0, 0⟩

/-- What a capture has done with reassemblers: the one of a connection that ends is settled, a
connection gets a new one, and bytes are fed to the one there is, or to a new one. -/
inductive Handling where
  | settle
  | fresh
  | feed (bytes : List UInt8)
deriving DecidableEq

/-- `Replayer`, with what comes of the reassemblers. -/
structure LineReplayer (Session : Type) where
  found : Replay
  nowUs : Nat
  session : Session

section Reading

-- what comes of the reassemblers and of the frames they hand over, at an offset
variable {Session : Type} (serve : Session → Nat → Handling → Session)

/-- Has something done at the offset of the record. -/
def LineReplayer.hand (replayer : LineReplayer Session) (handling : Handling) :
    LineReplayer Session :=
  { replayer with session := serve replayer.session replayer.nowUs handling }

/-- Counts a line that is neither a comment nor a record. -/
def LineReplayer.unreadable (replayer : LineReplayer Session) : LineReplayer Session :=
  { replayer with
    found := { replayer.found with unreadableLines := replayer.found.unreadableLines + 1 } }

/-- Counts a connection, and gives it a reassembler of its own. -/
def LineReplayer.opened (replayer : LineReplayer Session) : LineReplayer Session :=
  let replayer := replayer.hand serve .settle
  let replayer := { replayer with
    found := { replayer.found with connections := replayer.found.connections + 1 } }
  replayer.hand serve .fresh

/-- Counts bytes that were sent. -/
def LineReplayer.sent (replayer : LineReplayer Session) (bytes : List UInt8) :
    LineReplayer Session :=
  { replayer with found := { replayer.found with
      sentBytes := replayer.found.sentBytes + UInt64.ofNat bytes.length } }

/-- Counts bytes that were received, and feeds them. -/
def LineReplayer.received (replayer : LineReplayer Session) (bytes : List UInt8) :
    LineReplayer Session :=
  let replayer := { replayer with found := { replayer.found with
      receivedBytes := replayer.found.receivedBytes + UInt64.ofNat bytes.length } }
  replayer.hand serve (.feed bytes)

/-- What a record's line says happened. -/
def LineReplayer.happened (replayer : LineReplayer Session) (what : List Char) :
    LineReplayer Session :=
  if what = "open".toList then replayer.opened serve
  else if what = "close".toList ∨ what = "eof".toList ∨ "error ".toList.isPrefixOf what then
    replayer.hand serve .settle
  else match "> ".toList.isPrefixOf? what with
    | some hex => (unhex hex).elim replayer.unreadable replayer.sent
    | none =>
        match "< ".toList.isPrefixOf? what with
        | some hex => (unhex hex).elim replayer.unreadable (replayer.received serve)
        | none => if "fail ".toList.isPrefixOf what then replayer else replayer.unreadable

/-- The time of a record. -/
def LineReplayer.stamp (replayer : LineReplayer Session) (takenAt : OffsetDateTime) (since : Nat) :
    LineReplayer Session :=
  { replayer with
    nowUs := since
    found := { replayer.found with
      firstAt := some (replayer.found.firstAt.getD takenAt)
      lastAt := some takenAt } }

/-- Counts the records that a comment says were dropped. -/
def LineReplayer.dropped (replayer : LineReplayer Session) (count : Nat) : LineReplayer Session :=
  { replayer with found := { replayer.found with
      droppedRecords := replayer.found.droppedRecords + UInt64.ofNat count } }

/-- The three fields of a record's line. -/
def fields (text : List Char) : Option (List Char × List Char × List Char) := do
  let (takenAt, rest) ← splitOnce ' ' text
  let (since, what) ← splitOnce ' ' rest
  pure (takenAt, since, what)

/-- One line of a capture. -/
def LineReplayer.line (replayer : LineReplayer Session) (text : List Char) : LineReplayer Session :=
  if text = [] then replayer
  else match "# ".toList.isPrefixOf? text with
    | some comment =>
        match splitAtText " record(s) dropped".toList comment with
        | some (count, _) => replayer.dropped ((parseUnsigned (2 ^ 64) count).getD 0)
        | none => replayer
    | none =>
        match fields text with
        | none => replayer.unreadable
        | some (takenAt, since, what) =>
            match parseTimestamp takenAt, parseOffset since with
            | some takenAt, some since => (replayer.stamp takenAt since).happened serve what
            | _, _ => replayer.unreadable

/-- `BufRead::lines`: each line without its ending. -/
def inputLines (text : List Char) : List (List Char) :=
  let (complete, tail) := lines '\n' text
  complete.map (fun line => (['\r'].isSuffixOf? line).getD line) ++
    (if tail = [] then [] else [tail])

/-- `replay`: what the lines of a capture come to. -/
def replayText (start : Session) (text : List Char) : Replay × Session :=
  let replayer := (inputLines text).foldl (LineReplayer.line serve) ⟨.empty, 0, start⟩
  let replayer := replayer.hand serve .settle
  (replayer.found, replayer.session)

end Reading

/-! ## Lines -/

/-- A text without line breaks. -/
def Unbroken (text : List Char) : Prop := ∀ c ∈ text, c ≠ '\n' ∧ c ≠ '\r'

theorem Unbroken.append {front text : List Char} (hfront : Unbroken front)
    (htext : Unbroken text) : Unbroken (front ++ text) := by
  intro c hmem
  rcases List.mem_append.mp hmem with hmem | hmem
  · exact hfront c hmem
  · exact htext c hmem

theorem Unbroken.cons {c : Char} {text : List Char} (hc : c ≠ '\n' ∧ c ≠ '\r')
    (htext : Unbroken text) : Unbroken (c :: text) := by
  intro c' hmem
  rcases List.mem_cons.mp hmem with heq | hmem
  · exact heq ▸ hc
  · exact htext c' hmem

theorem unbroken_of_all {text : List Char} (h : text.all fun c => c ≠ '\n' ∧ c ≠ '\r') :
    Unbroken text := by
  intro c hmem
  exact of_decide_eq_true (List.all_eq_true.mp h c hmem)

/-- Digits are no line breaks. -/
theorem unbroken_of_digits {text : List Char} (h : AllDigits text) : Unbroken text := by
  intro c hmem
  have hdigit := h c hmem
  refine ⟨?_, ?_⟩
  · intro heq
    rw [heq] at hdigit
    cases hdigit
  · intro heq
    rw [heq] at hdigit
    cases hdigit

theorem unbroken_one_line (text : List Char) : Unbroken (oneLine text) := by
  intro c hmem
  obtain ⟨original, _, hc⟩ := List.mem_map.mp hmem
  rw [← hc]
  split_ifs with hbreak
  · decide
  · exact not_or.mp hbreak

theorem unbroken_hex (bytes : List UInt8) : Unbroken (Hex.encode bytes) := by
  intro c hmem
  have hall : ∀ digit ∈ Hex.alphabet, digit ≠ '\n' ∧ digit ≠ '\r' :=
    List.all_iff_forall_prop.mp (by decide)
  exact hall c (Hex.mem_alphabet_of_mem_encode hmem)

theorem unbroken_what (event : Event) : Unbroken event.what := by
  cases event with
  | opened => exact unbroken_of_all (by decide)
  | openFailed reason =>
      exact (unbroken_of_all (by decide)).append (unbroken_one_line _)
  | sent bytes => exact (unbroken_of_all (by decide)).append (unbroken_hex _)
  | received bytes => exact (unbroken_of_all (by decide)).append (unbroken_hex _)
  | error reason => exact (unbroken_of_all (by decide)).append (unbroken_one_line _)
  | eof => exact unbroken_of_all (by decide)
  | close => exact unbroken_of_all (by decide)

/-- A timestamp has digits and a few marks. -/
theorem mem_timestamp {takenAt : OffsetDateTime} {c : Char} (h : c ∈ timestamp takenAt) :
    c.isDigit = true ∨ c ∈ "-T:.Z".toList := by
  have hmarks : "-T:.Z".toList = ['-', 'T', ':', '.', 'Z'] := rfl
  have hdigits : ∀ width number, c ∈ padded width number → c.isDigit = true :=
    fun width number hmem => all_digits_padded c hmem
  have hyear : ∀ year, c ∈ yearText year → c.isDigit = true ∨ c = '-' := by
    intro year hmem
    unfold yearText at hmem
    rcases List.mem_append.mp hmem with hsign | hmem
    · split_ifs at hsign
      · exact .inr (List.mem_singleton.mp hsign)
      · cases hsign
    · exact .inl (hdigits _ _ hmem)
  unfold timestamp at h
  simp only [List.mem_append, List.mem_cons, List.not_mem_nil, or_false] at h
  rw [hmarks]
  simp only [List.mem_cons, List.not_mem_nil, or_false]
  grind

/-- An offset has digits and a few marks. -/
theorem mem_offset_text {micros : Nat} {c : Char} (h : c ∈ offsetText micros) :
    c.isDigit = true ∨ c ∈ "+.ms".toList := by
  have hmarks : "+.ms".toList = ['+', '.', 'm', 's'] := rfl
  have hunit : "ms".toList = ['m', 's'] := rfl
  unfold offsetText at h
  rw [hunit] at h
  rw [hmarks]
  simp only [List.mem_append, List.mem_cons, List.not_mem_nil, or_false] at h ⊢
  have hdigits : c ∈ Nat.toDigits 10 (micros / 1000) → c.isDigit = true :=
    fun hmem => all_digits_to_digits c hmem
  have hpadded : c ∈ padded 3 (micros % 1000) → c.isDigit = true :=
    fun hmem => all_digits_padded c hmem
  grind

theorem not_mem_of_marks {text marks : List Char} {c : Char}
    (h : ∀ c ∈ text, c.isDigit = true ∨ c ∈ marks) (hdigit : c.isDigit = false)
    (hmarks : c ∉ marks) : c ∉ text := by
  intro hmem
  rcases h c hmem with hc | hc
  · rw [hdigit] at hc
    cases hc
  · exact hmarks hc

theorem unbroken_of_marks {text marks : List Char}
    (h : ∀ c ∈ text, c.isDigit = true ∨ c ∈ marks) (hmarks : Unbroken marks) : Unbroken text := by
  intro c hmem
  rcases h c hmem with hc | hc
  · have hdigits : AllDigits [c] := fun c' hc' => List.mem_singleton.mp hc' ▸ hc
    exact unbroken_of_digits hdigits c (List.mem_singleton_self c)
  · exact hmarks c hc

/-- The lines of a record. -/
def Record.lines (record : Record) : List (List Char) :=
  (if 0 < record.droppedBefore then [record.comment] else []) ++ [record.text]

theorem unbroken_text (record : Record) : Unbroken record.text := by
  have htime : Unbroken (timestamp record.takenAt) :=
    unbroken_of_marks (fun c => mem_timestamp) (unbroken_of_all (by decide))
  have hoffset : Unbroken (offsetText record.micros) :=
    unbroken_of_marks (fun c => mem_offset_text) (unbroken_of_all (by decide))
  have hblank : ' ' ≠ '\n' ∧ ' ' ≠ '\r' := by decide
  exact htime.append (.cons hblank (hoffset.append (.cons hblank (unbroken_what _))))

theorem unbroken_comment (record : Record) : Unbroken record.comment := by
  have hcount : Unbroken (Nat.toDigits 10 record.droppedBefore.toNat) :=
    unbroken_of_digits all_digits_to_digits
  refine (unbroken_of_all (by decide)).append (hcount.append ?_)
  exact (unbroken_of_all (by decide)).append (unbroken_of_all (by decide))

theorem unbroken_lines {record : Record} {text : List Char} (h : text ∈ record.lines) :
    Unbroken text := by
  unfold Record.lines at h
  rcases List.mem_append.mp h with hcomment | htext
  · split_ifs at hcomment
    · rw [List.mem_singleton.mp hcomment]
      exact unbroken_comment record
    · cases hcomment
  · rw [List.mem_singleton.mp htext]
    exact unbroken_text record

/-- What is written of a record is its lines. -/
theorem line_eq_unlines (record : Record) : line record = unlines '\n' record.lines := by
  unfold line Record.lines
  split_ifs
  · simp [unlines]
  · simp [unlines]

theorem flat_map_line_eq_unlines (records : List Record) :
    records.flatMap line = unlines '\n' (records.flatMap Record.lines) := by
  induction records with
  | nil => rfl
  | cons record records ih =>
      rw [List.flatMap_cons, List.flatMap_cons, unlines_append, ih, line_eq_unlines]

theorem strip_return_of_unbroken {text : List Char} (h : Unbroken text) :
    (['\r'].isSuffixOf? text).getD text = text := by
  rw [List.isSuffixOf?, List.reverse_singleton]
  cases hreverse : text.reverse with
  | nil => rfl
  | cons c rest =>
      have hmem : c ∈ text := List.mem_reverse.mp (hreverse ▸ List.mem_cons_self ..)
      rw [strip_front_of_ne (h c hmem).2]
      rfl

/-- The lines that are read are those that were written. -/
theorem input_lines_flat_map (records : List Record) :
    inputLines (records.flatMap line) = records.flatMap Record.lines := by
  have hunbroken : ∀ text ∈ records.flatMap Record.lines, Unbroken text := by
    intro text hmem
    obtain ⟨record, _, htext⟩ := List.mem_flatMap.mp hmem
    exact unbroken_lines htext
  have hbreaks : ∀ text ∈ records.flatMap Record.lines, '\n' ∉ text :=
    fun text hmem hbreak => (hunbroken text hmem '\n' hbreak).1 rfl
  have hlines := lines_unlines hbreaks
  unfold inputLines
  rw [flat_map_line_eq_unlines, hlines]
  dsimp only
  rw [if_pos rfl, List.append_nil]
  refine (List.map_congr_left fun text hmem => ?_).trans (List.map_id _)
  exact strip_return_of_unbroken (hunbroken text hmem)

/-! ## What is read of a line -/

/-- An instant in a year of four digits. -/
def HasFourDigitYear (takenAt : OffsetDateTime) : Prop :=
  0 ≤ (DateTime.ofNanos takenAt.nanos).date.year ∧
    (DateTime.ofNanos takenAt.nanos).date.year ≤ 9999

instance (takenAt : OffsetDateTime) : Decidable (HasFourDigitYear takenAt) := instDecidableAnd

/-- A record that can be written: the year of its instant has four digits, and the microseconds of
its offset fit `u64`. -/
structure Record.Writable (record : Record) : Prop where
  year : HasFourDigitYear record.takenAt
  offset : record.micros < 2 ^ 64

@[simp]
theorem take_char_cons (c : Char) (text : List Char) : takeChar c (c :: text) = some text :=
  if_pos rfl

/-- A year that begins with a digit has no sign. -/
theorem take_year_of_digits {text rest : List Char} {year : Nat}
    (h : takeDigits 4 text = some (year, rest)) : takeYear text = some ((year : Int), rest) := by
  unfold takeYear
  split
  · next text =>
      exfalso
      unfold takeDigits at h
      simp [Char.isDigit] at h
  · next text =>
      exfalso
      unfold takeDigits at h
      simp [Char.isDigit] at h
  · rw [h]
    rfl

/-- The instant of a date and time of day down to the microsecond. -/
theorem to_nanos_micros (takenAt : OffsetDateTime) {time : DateTime}
    (htime : DateTime.ofNanos takenAt.nanos = time) :
    DateTime.toNanos { time with nanosecond := time.nanosecond / 1000 * 1000 } =
      some (wholeMicros takenAt).nanos := by
  rw [← htime, ← DateTime.of_nanos_whole_micros, DateTime.to_nanos_of_nanos]
  rfl

/-- A timestamp is read as its instant, down to the microsecond. -/
theorem parse_timestamp_timestamp {takenAt : OffsetDateTime} (h : HasFourDigitYear takenAt) :
    parseTimestamp (timestamp takenAt) = some (wholeMicros takenAt) := by
  obtain ⟨hyear, hyear'⟩ := h
  obtain ⟨_, hmonth, _, hday⟩ := Date.exists_of_days (takenAt.nanos / dayNanos + epochDay)
  obtain ⟨hhour, hminute, hsecond, hnano⟩ := DateTime.is_time_of_nanos takenAt.nanos
  have hnanos := to_nanos_micros takenAt rfl
  have hlength := month_length_le (isLeap (Date.ofDays (takenAt.nanos / dayNanos + epochDay)).year)
    ((Date.ofDays (takenAt.nanos / dayNanos + epochDay)).month - 1)
  change (DateTime.ofNanos takenAt.nanos).date.month ≤ 12 at hmonth
  change (DateTime.ofNanos takenAt.nanos).date.day ≤ _ at hday
  have hdate : ((DateTime.ofNanos takenAt.nanos).date.year.natAbs : Int) =
      (DateTime.ofNanos takenAt.nanos).date.year := Int.natAbs_of_nonneg hyear
  have hmarked : timestamp takenAt = _ ++ ['Z'] := rfl
  rw [parseTimestamp, hmarked, strip_back_append]
  generalize hfields : DateTime.ofNanos takenAt.nanos = time at *
  have hyeartext : yearText time.date.year = padded 4 time.date.year.natAbs := by
    rw [yearText, if_neg (not_lt.mpr hyear), List.nil_append]
  have htakeyear : ∀ rest, takeYear (padded 4 time.date.year.natAbs ++ rest) =
      some (time.date.year, rest) := by
    intro rest
    rw [take_year_of_digits (take_digits_padded (by omega) (by omega)), hdate]
  have htaketwo : ∀ number rest, number < 100 →
      takeDigits 2 (padded 2 number ++ rest) = some (number, rest) :=
    fun number rest h => take_digits_padded (by omega) h
  have htakesix : takeDigits 6 (padded 6 (time.nanosecond / 1000)) =
      some (time.nanosecond / 1000, []) := by
    have htake := @take_digits_padded [] (time.nanosecond / 1000) 6 (by omega) (by omega)
    rwa [List.append_nil] at htake
  rw [hyeartext]
  simp only [List.append_assoc, List.cons_append]
  dsimp only [Bind.bind]
  rw [Option.bind_some, htakeyear, Option.bind_some, take_char_cons, Option.bind_some,
    htaketwo time.date.month _ (by omega), Option.bind_some, take_char_cons, Option.bind_some,
    htaketwo time.date.day _ (by omega), Option.bind_some, take_char_cons, Option.bind_some,
    htaketwo time.hour _ (by omega), Option.bind_some, take_char_cons, Option.bind_some,
    htaketwo time.minute _ (by omega), Option.bind_some, take_char_cons, Option.bind_some,
    htaketwo time.second _ (by omega), Option.bind_some, take_char_cons, Option.bind_some,
    htakesix, Option.bind_some, guard, if_pos rfl]
  change (DateTime.toNanos { time with nanosecond := time.nanosecond / 1000 * 1000 }).bind _ = _
  rw [hnanos, Option.bind_some, OffsetDateTime.fromUnixTimestampNanos,
    dif_pos ⟨(wholeMicros takenAt).lower, (wholeMicros takenAt).upper⟩]

/-- An offset is read as its microseconds. -/
theorem parse_offset_offset_text {micros : Nat} (h : micros < 2 ^ 64) :
    parseOffset (offsetText micros) = some micros := by
  have hplus : offsetText micros =
      ['+'] ++ (Nat.toDigits 10 (micros / 1000) ++ '.' :: padded 3 (micros % 1000) ++
        "ms".toList) := rfl
  have hdot : '.' ∉ Nat.toDigits 10 (micros / 1000) := by
    intro hmem
    have hdigit := all_digits_to_digits '.' hmem
    cases hdigit
  have hlength : (padded 3 (micros % 1000)).length = 3 :=
    length_padded_of_lt (by omega) (by omega)
  have hmillis : parseUnsigned (2 ^ 64) (Nat.toDigits 10 (micros / 1000)) = some _ :=
    parse_unsigned_digits all_digits_to_digits Nat.toDigits_ne_nil (by
      rw [digits_value_to_digits]
      omega)
  have hmicros : parseUnsigned (2 ^ 64) (padded 3 (micros % 1000)) = some _ :=
    parse_unsigned_digits all_digits_padded (by
      intro hnil
      rw [hnil] at hlength
      cases hlength) (by
      rw [digits_value_padded]
      omega)
  have htotal : micros / 1000 * 1000 + micros % 1000 = micros := by omega
  rw [digits_value_to_digits] at hmillis
  rw [digits_value_padded] at hmicros
  rw [parseOffset, hplus, strip_front_append]
  simp only [Option.bind_eq_bind, Option.bind_some, strip_back_append, split_once_append hdot,
    hlength, guard, if_true, hmillis, hmicros, htotal, h, Option.pure_def]

/-- Written digits are read back. -/
theorem unhex_encode (bytes : List UInt8) : unhex (Hex.encode bytes) = some bytes := by
  have hplus : ∀ value < 16, Hex.digit value ≠ '+' := by decide
  induction bytes with
  | nil => rfl
  | cons byte bytes ih =>
      have hbyte := byte.toNat_lt
      have hhigh := Hex.digit_value_digit (byte.toNat / 16) (by omega)
      have hlow := Hex.digit_value_digit (byte.toNat % 16) (by omega)
      have hjoin : UInt8.ofNat (16 * (byte.toNat / 16) + byte.toNat % 16) = byte := by
        rw [Nat.div_add_mod, UInt8.ofNat_toNat]
      rw [Hex.encode, unhex, pairValue, if_neg (hplus _ (by omega)), hhigh, hlow, ih]
      simp only [Option.bind_eq_bind, Option.bind_some, Option.pure_def, hjoin]

/-- The fields of a record's line. -/
theorem fields_text (record : Record) : fields record.text =
    some (timestamp record.takenAt, offsetText record.micros, record.event.what) := by
  have htime : ' ' ∉ timestamp record.takenAt :=
    not_mem_of_marks (fun c => mem_timestamp) rfl (by decide)
  have hoffset : ' ' ∉ offsetText record.micros :=
    not_mem_of_marks (fun c => mem_offset_text) rfl (by decide)
  rw [fields, Record.text, split_once_append htime]
  show (splitOnce ' ' (offsetText record.micros ++ ' ' :: record.event.what)).bind _ = _
  rw [split_once_append hoffset]
  rfl

/-! ## What records come to -/

section Replays

variable {Session : Type} (serve : Session → Nat → Handling → Session)
variable {record : Record}

/-- What happened, to a replayer. -/
def LineReplayer.event (replayer : LineReplayer Session) : Event → LineReplayer Session
  | .opened => replayer.opened serve
  | .openFailed _ => replayer
  | .sent bytes => replayer.sent bytes
  | .received bytes => replayer.received serve bytes
  | .error _ => replayer.hand serve .settle
  | .eof => replayer.hand serve .settle
  | .close => replayer.hand serve .settle

/-- A record, to a replayer: the records dropped before it, its time, and what happened. -/
def LineReplayer.take (replayer : LineReplayer Session) (record : Record) : LineReplayer Session :=
  LineReplayer.event serve ((replayer.dropped record.droppedBefore.toNat).stamp
    (wholeMicros record.takenAt) record.micros) record.event

/-- What a line says happened is what happened. -/
theorem happened_what (replayer : LineReplayer Session) (event : Event) :
    replayer.happened serve event.what = replayer.event serve event := by
  cases event with
  | opened => exact if_pos rfl
  | openFailed reason => rfl
  | sent bytes =>
      show (unhex (Hex.encode bytes)).elim replayer.unreadable replayer.sent = _
      rw [unhex_encode]
      rfl
  | received bytes =>
      show (unhex (Hex.encode bytes)).elim replayer.unreadable (replayer.received serve) = _
      rw [unhex_encode]
      rfl
  | error reason => rfl
  | eof => rfl
  | close => rfl

/-- The line of a record is no comment. -/
theorem not_comment_text (record : Record) :
    record.text ≠ [] ∧ "# ".toList.isPrefixOf? record.text = none := by
  cases htime : timestamp record.takenAt with
  | nil => exact absurd htime (List.append_ne_nil_of_right_ne_nil _ (List.cons_ne_nil _ _))
  | cons c rest =>
      have hmem : c ∈ timestamp record.takenAt := htime ▸ List.mem_cons_self ..
      have hnot : '#' ∉ timestamp record.takenAt :=
        not_mem_of_marks (fun c => mem_timestamp) rfl (by decide)
      have hc : c ≠ '#' := fun heq => hnot (heq ▸ hmem)
      rw [Record.text, htime, List.cons_append]
      exact ⟨List.cons_ne_nil _ _, strip_front_of_ne hc⟩

/-- The line of a record is read as its time and what happened. -/
theorem line_text (replayer : LineReplayer Session) (h : record.Writable) :
    replayer.line serve record.text =
      (replayer.stamp (wholeMicros record.takenAt) record.micros).event serve record.event := by
  obtain ⟨hnil, hcomment⟩ := not_comment_text record
  unfold LineReplayer.line
  rw [if_neg hnil, hcomment, fields_text]
  dsimp only
  rw [parse_timestamp_timestamp h.year, parse_offset_offset_text h.offset]
  exact happened_what serve _ _

/-- The comment before a record is read as the records dropped. -/
theorem line_comment (replayer : LineReplayer Session) (record : Record) :
    replayer.line serve record.comment = replayer.dropped record.droppedBefore.toNat := by
  have hcount : parseUnsigned (2 ^ 64) (Nat.toDigits 10 record.droppedBefore.toNat) = some _ :=
    parse_unsigned_digits all_digits_to_digits Nat.toDigits_ne_nil (by
      rw [digits_value_to_digits]
      exact record.droppedBefore.toNat_lt)
  have hblank : ' ' ∉ Nat.toDigits 10 record.droppedBefore.toNat := by
    intro hmem
    have hdigit := all_digits_to_digits ' ' hmem
    cases hdigit
  have hsplit : splitAtText (' ' :: "record(s) dropped".toList) _ = some (_, _) :=
    @split_at_text_append _ _ _ _ _ " before the next: the writer fell behind".toList hblank
  have hfront : "# ".toList.isPrefixOf? record.comment = some _ := strip_front_append _ _
  have hpattern : " record(s) dropped".toList = ' ' :: "record(s) dropped".toList := rfl
  have hnil : record.comment ≠ [] := List.append_ne_nil_of_left_ne_nil (List.cons_ne_nil _ _) _
  rw [digits_value_to_digits] at hcount
  unfold LineReplayer.line
  rw [if_neg hnil, hfront, hpattern]
  dsimp only
  rw [hsplit]
  dsimp only
  rw [hcount, Option.getD_some]

theorem dropped_zero (replayer : LineReplayer Session) : replayer.dropped 0 = replayer := by
  simp [LineReplayer.dropped]

/-- The lines of a record are read as the record. -/
theorem foldl_lines (replayer : LineReplayer Session) (h : record.Writable) :
    record.lines.foldl (LineReplayer.line serve) replayer = replayer.take serve record := by
  unfold Record.lines
  split_ifs with hdropped
  · rw [List.singleton_append, List.foldl_cons, List.foldl_cons, List.foldl_nil, line_comment,
      line_text serve _ h]
    rfl
  · have hzero : record.droppedBefore.toNat = 0 := by
      rw [UInt64.lt_iff_toNat_lt] at hdropped
      simpa using hdropped
    rw [List.nil_append, List.foldl_cons, List.foldl_nil, line_text serve _ h, LineReplayer.take,
      hzero, dropped_zero]

/-- The lines of some records are read as the records. -/
theorem foldl_flat_map_lines {records : List Record} (h : ∀ record ∈ records, record.Writable)
    (replayer : LineReplayer Session) :
    (records.flatMap Record.lines).foldl (LineReplayer.line serve) replayer =
      records.foldl (LineReplayer.take serve) replayer := by
  induction records generalizing replayer with
  | nil => rfl
  | cons record records ih =>
      rw [List.flatMap_cons, List.foldl_append, foldl_lines serve _ (h record List.mem_cons_self),
        ih fun later hlater => h later (List.mem_cons_of_mem _ hlater)]
      rfl

/-! ### Totals -/

/-- The bytes an event says were sent. -/
def Event.sentLength : Event → Nat
  | .sent bytes => bytes.length
  | _ => 0

/-- The bytes an event says were received. -/
def Event.receivedLength : Event → Nat
  | .received bytes => bytes.length
  | _ => 0

/-- The connections that records say were opened. -/
def connectionsOf (records : List Record) : Nat :=
  records.countP fun record => record.event = .opened

/-- The bytes that records say were sent. -/
def sentOf (records : List Record) : Nat :=
  (records.map fun record => record.event.sentLength).sum

/-- The bytes that records say were received. -/
def receivedOf (records : List Record) : Nat :=
  (records.map fun record => record.event.receivedLength).sum

/-- The records that records say were dropped before them. -/
def droppedOf (records : List Record) : Nat :=
  (records.map fun record => record.droppedBefore.toNat).sum

/-- What an event has done with reassemblers: a connection that opens settles the one before, and
one that ends is settled. -/
def Event.handlings : Event → List Handling
  | .opened => [.settle, .fresh]
  | .openFailed _ => []
  | .sent _ => []
  | .received bytes => [.feed bytes]
  | .error _ => [.settle]
  | .eof => [.settle]
  | .close => [.settle]

/-- What records have done with reassemblers, each at its offset, and the end of the capture at the
last one. -/
def handlingsOf (records : List Record) : List (Nat × Handling) :=
  records.flatMap (fun record => record.event.handlings.map fun handling =>
    (record.micros, handling)) ++ [((records.getLast?.map Record.micros).getD 0, .settle)]

/-- Has one thing after another done. -/
def serveAll (session : Session) (handlings : List (Nat × Handling)) : Session :=
  handlings.foldl (fun session timed => serve session timed.1 timed.2) session

/-- What was found, and what records add to it. -/
def Replay.add (found : Replay) (records : List Record) : Replay where
  connections := found.connections + UInt64.ofNat (connectionsOf records)
  firstAt := found.firstAt.or (records.head?.map fun record => wholeMicros record.takenAt)
  lastAt := (records.getLast?.map fun record => wholeMicros record.takenAt).or found.lastAt
  sentBytes := found.sentBytes + UInt64.ofNat (sentOf records)
  receivedBytes := found.receivedBytes + UInt64.ofNat (receivedOf records)
  droppedRecords := found.droppedRecords + UInt64.ofNat (droppedOf records)
  unreadableLines := found.unreadableLines

/-- A record adds to what was found what it says. -/
theorem found_take (replayer : LineReplayer Session) (record : Record) :
    (replayer.take serve record).found = replayer.found.add [record] := by
  obtain ⟨found, nowUs, session⟩ := replayer
  obtain ⟨takenAt, since, event, droppedBefore⟩ := record
  cases event with
  | opened | openFailed reason | sent bytes | received bytes | error reason | eof | close =>
      simp [LineReplayer.take, LineReplayer.event, LineReplayer.opened, LineReplayer.sent,
        LineReplayer.received, LineReplayer.hand, LineReplayer.stamp, LineReplayer.dropped,
        Replay.add, connectionsOf, sentOf, receivedOf, droppedOf, Event.sentLength,
        Event.receivedLength]

theorem add_nil (found : Replay) : found.add [] = found := by
  simp [Replay.add, connectionsOf, sentOf, receivedOf, droppedOf]

theorem add_cons (found : Replay) (record : Record) (records : List Record) :
    (found.add [record]).add records = found.add (record :: records) := by
  have hlast : (records.getLast?.map fun record => wholeMicros record.takenAt).or
      (some (wholeMicros record.takenAt)) =
        ((record :: records).getLast?.map fun record => wholeMicros record.takenAt) := by
    rw [List.getLast?_cons]
    cases records.getLast? with
    | none => rfl
    | some last => rfl
  have hcount : connectionsOf (record :: records) =
      connectionsOf [record] + connectionsOf records :=
    @List.countP_append _ _ [record] records
  apply Replay.ext
  · show found.connections + _ + _ = found.connections + _
    rw [hcount, UInt64.ofNat_add, UInt64.add_assoc]
  · show (found.firstAt.or (some (wholeMicros record.takenAt))).or _ = _
    rw [Option.or_assoc, Option.some_or]
    rfl
  · have hone : (found.add [record]).lastAt = some (wholeMicros record.takenAt) := by
      simp [Replay.add]
    show (records.getLast?.map fun record => wholeMicros record.takenAt).or
      (found.add [record]).lastAt =
        ((record :: records).getLast?.map fun record => wholeMicros record.takenAt).or found.lastAt
    rw [hone, hlast, List.getLast?_cons]
    rfl
  · show found.sentBytes + _ + _ = found.sentBytes + _
    rw [UInt64.add_assoc, ← UInt64.ofNat_add]
    rfl
  · show found.receivedBytes + _ + _ = found.receivedBytes + _
    rw [UInt64.add_assoc, ← UInt64.ofNat_add]
    rfl
  · show found.droppedRecords + _ + _ = found.droppedRecords + _
    rw [UInt64.add_assoc, ← UInt64.ofNat_add]
    rfl
  · rfl

/-- What records add to what was found. -/
theorem found_foldl (replayer : LineReplayer Session) (records : List Record) :
    (records.foldl (LineReplayer.take serve) replayer).found = replayer.found.add records := by
  induction records generalizing replayer with
  | nil => exact (add_nil _).symm
  | cons record records ih =>
      rw [List.foldl_cons, ih, found_take, add_cons]

/-- What records have done. -/
theorem session_foldl (replayer : LineReplayer Session) (records : List Record) :
    ((records.foldl (LineReplayer.take serve) replayer).hand serve .settle).session =
      serveAll serve replayer.session (records.flatMap (fun record =>
        record.event.handlings.map fun handling => (record.micros, handling)) ++
          [((records.getLast?.map Record.micros).getD replayer.nowUs, .settle)]) := by
  induction records generalizing replayer with
  | nil => rfl
  | cons record records ih =>
      have hnow : ((record :: records).getLast?.map Record.micros).getD replayer.nowUs =
          (records.getLast?.map Record.micros).getD record.micros := by
        rw [List.getLast?_cons]
        cases records.getLast? with
        | none => rfl
        | some last => rfl
      rw [List.foldl_cons, ih, hnow, List.flatMap_cons, List.append_assoc, serveAll, serveAll,
        List.foldl_append (l := record.event.handlings.map _)]
      obtain ⟨takenAt, since, event, droppedBefore⟩ := record
      cases event with
      | opened | openFailed reason | sent bytes | received bytes | error reason | eof | close => rfl

/-! ### The round trip -/

/-- What reading a capture back came to is what the records say, and the reassemblers were handed
exactly what the records received. -/
structure ReadBack (records : List Record) (start : Session) (result : Replay × Session) :
    Prop where
  readable : result.1.unreadableLines = 0
  dropped : result.1.droppedRecords.toNat = droppedOf records
  connections : result.1.connections.toNat = connectionsOf records
  sent : result.1.sentBytes.toNat = sentOf records
  received : result.1.receivedBytes.toNat = receivedOf records
  first : result.1.firstAt = records.head?.map fun record => wholeMicros record.takenAt
  last : result.1.lastAt = records.getLast?.map fun record => wholeMicros record.takenAt
  handed : result.2 = serveAll serve start (handlingsOf records)

/-- The totals of some records fit `u64`. -/
structure TotalsFit (records : List Record) : Prop where
  dropped : droppedOf records < 2 ^ 64
  connections : connectionsOf records < 2 ^ 64
  sent : sentOf records < 2 ^ 64
  received : receivedOf records < 2 ^ 64

/-- What reading the text of some records back comes to. -/
theorem replay_text_flat_map {records : List Record} (h : ∀ record ∈ records, record.Writable)
    (start : Session) :
    replayText serve start (records.flatMap line) =
      (Replay.empty.add records, serveAll serve start (handlingsOf records)) := by
  unfold replayText
  rw [input_lines_flat_map, foldl_flat_map_lines serve h]
  exact Prod.ext (found_foldl serve _ records) (session_foldl serve _ records)

/-- A total that was counted from nothing is the number while that fits. -/
theorem to_nat_counted (number : Nat) :
    ((0 : UInt64) + UInt64.ofNat number).toNat = number ↔ number < 2 ^ 64 := by
  rw [UInt64.zero_add, UInt64.toNat_ofNat']
  exact ⟨fun h => h ▸ Nat.mod_lt _ (by decide), Nat.mod_eq_of_lt⟩

/-- Records that can be written are read back as what they say if and only if their totals fit
`u64`. -/
theorem capture_reads_back_iff {records : List Record} (h : ∀ record ∈ records, record.Writable)
    (start : Session) :
    ReadBack serve records start (replayText serve start (records.flatMap line)) ↔
      TotalsFit records := by
  rw [replay_text_flat_map serve h]
  constructor
  · intro hback
    exact ⟨(to_nat_counted _).mp hback.dropped, (to_nat_counted _).mp hback.connections,
      (to_nat_counted _).mp hback.sent, (to_nat_counted _).mp hback.received⟩
  · intro hfit
    refine ⟨rfl, (to_nat_counted _).mpr hfit.dropped, (to_nat_counted _).mpr hfit.connections,
      (to_nat_counted _).mpr hfit.sent, (to_nat_counted _).mpr hfit.received, ?_, ?_, rfl⟩
    · exact Option.none_or
    · exact Option.or_none

end Replays

/-! ## The frames -/

/-- What a handling makes of the replay of frames. -/
def Replayer.handled (replayer : Replayer) (_ : Nat) : Handling → Replayer
  | .settle => replayer.finish
  | .fresh => { replayer with connection := some .new }
  | .feed bytes => replayer.next (.received bytes)

/-- What an event has done is what it does to the replay of frames. -/
theorem handled_event (replayer : Replayer) (offset : Nat) (event : Event) :
    serveAll Replayer.handled replayer (event.handlings.map fun handling => (offset, handling)) =
      replayer.next event := by
  cases event with
  | opened | openFailed reason | sent bytes | received bytes | error reason | eof | close => rfl

/-- Reading the text of some records back comes to the frames of what they say happened. -/
theorem frames_of_text {records : List Record} (h : ∀ record ∈ records, record.Writable) :
    (replayText Replayer.handled ⟨none, []⟩ (records.flatMap line)).2.frames =
      replay (records.map Record.event) := by
  have hrun : ∀ replayer : Replayer, serveAll Replayer.handled replayer (records.flatMap
      fun record => record.event.handlings.map fun handling => (record.micros, handling)) =
        run Replayer.next replayer (records.map Record.event) := by
    intro replayer
    induction records generalizing replayer with
    | nil => rfl
    | cons record records ih =>
        rw [List.flatMap_cons, serveAll, List.foldl_append, List.map_cons, run_cons,
          ← handled_event replayer record.micros]
        exact ih (fun later hlater => h later (List.mem_cons_of_mem _ hlater)) _
  rw [replay_text_flat_map _ h, handlingsOf, serveAll, List.foldl_append]
  exact congrArg (fun replayer => replayer.finish.frames) (hrun _)

/-! ## Captures -/

/-- Keeps what was handed over. -/
def keepAll (kept : List (Nat × Handling)) (offset : Nat) (handling : Handling) :
    List (Nat × Handling) :=
  kept ++ [(offset, handling)]

/-- A port that opened after a failure with a line break in it, behind records that were dropped. -/
def reopened : List Record :=
  [⟨second 1, 0, .openFailed "busy\nretrying", 0⟩, ⟨second 2, 1234567, .opened, 7⟩,
    ⟨second 3, 2345678901, .received [255, 0], 0⟩]

/-- Such a capture is read back. -/
theorem reopened_reads_back :
    ReadBack keepAll reopened [] (replayText keepAll [] (reopened.flatMap line)) := by
  refine (capture_reads_back_iff keepAll ?_ []).mpr ⟨?_, ?_, ?_, ?_⟩
  · intro record hrecord
    have hyear : ∀ number ∈ [1, 2, 3], HasFourDigitYear (second number) := by decide +kernel
    simp only [reopened, List.mem_cons, List.not_mem_nil, or_false] at hrecord
    rcases hrecord with hrecord | hrecord | hrecord
    · rw [hrecord]
      exact ⟨hyear 1 (by simp), by simp [Record.micros]⟩
    · rw [hrecord]
      exact ⟨hyear 2 (by simp), by simp [Record.micros]⟩
    · rw [hrecord]
      exact ⟨hyear 3 (by simp), by simp [Record.micros]⟩
  · decide
  · decide
  · decide
  · decide

/-- Two records, behind as many dropped ones as a `u64` counts and behind one more. -/
def overflowing : List Record :=
  [⟨second 1, 0, .close, 18446744073709551615⟩, ⟨second 1, 0, .close, 1⟩]

/-- The dropped records of a capture are not always counted. -/
theorem dropped_records_overflow :
    ¬ ∀ (records : List Record), (∀ record ∈ records, record.Writable) →
      ReadBack keepAll records [] (replayText keepAll [] (records.flatMap line)) := by
  intro h
  have hwritable : ∀ record ∈ overflowing, record.Writable := by
    intro record hrecord
    have hyear : HasFourDigitYear (second 1) := by decide +kernel
    simp only [overflowing, List.mem_cons, List.not_mem_nil, or_false] at hrecord
    rcases hrecord with hrecord | hrecord
    · rw [hrecord]
      exact ⟨hyear, by simp [Record.micros]⟩
    · rw [hrecord]
      exact ⟨hyear, by simp [Record.micros]⟩
  have hdropped := (h overflowing hwritable).dropped
  rw [replay_text_flat_map keepAll hwritable] at hdropped
  have hfit := (to_nat_counted _).mp hdropped
  have htotal : droppedOf overflowing = 2 ^ 64 := by decide
  omega

end Splitforge.Thingmagic
