import Splitforge.Library.Json
import Splitforge.Library.Lines
import Splitforge.Storage.Record

/-!
# The write-ahead sidecar

A text file with one line per raw read: `SFJ1`, the digest of the rest, and the rest, which is
a JSON object. A write the power interrupted leaves the start of a line with no newline after
it, and the next write is appended straight onto it, so a line is also looked for behind
whatever is in front of it.
-/

namespace Splitforge.Storage

open Splitforge.Domain Splitforge.Library

/-- The newline. -/
def newline : UInt8 := 0x0a

/-- The space. -/
def space : UInt8 := 0x20

/-- `LINE_TAG`. -/
def lineTag : String := "SFJ1"

/-- What every line starts with: the tag and a space. -/
def lineStart : List UInt8 := Utf8.encode lineTag ++ [space]

/-- The crates a line is encoded with: `sha2`, and `serde_json` on a `SidecarRecord`. The laws
are what their documentation promises: a digest is 32 bytes, a document reads back as the record
it was written from, compact output is UTF-8 text without line breaks that opens with the first
field, and only text with the token structure of JSON is accepted. -/
structure Crates where
  sha256 : List UInt8 → List UInt8
  toJson : SidecarRecord → List UInt8
  fromJson : List UInt8 → Option SidecarRecord
  length_sha256 : ∀ bytes, (sha256 bytes).length = 32
  from_json_to_json : ∀ record, fromJson (toJson record) = some record
  to_json_valid : ∀ record, Utf8.Valid (toJson record)
  to_json_newline : ∀ record, newline ∉ toJson record
  to_json_opening : ∀ record, ∃ rest, toJson record = Utf8.encode "\x7b\"id\":" ++ rest
  from_json_scan : ∀ text record, fromJson text = some record →
    Json.scan .outside text = some .outside

/-- The end of a complete line in the sidecar, and the digest that line carries. -/
@[ext]
structure Tip where
  lineEnd : Nat
  digest : String
deriving DecidableEq

/-- The handle on the file: where it lives, and the last line this handle wrote or recovery
verified. The bytes of the file itself are passed beside it. -/
structure Sidecar where
  path : String
  tip : Option Tip
deriving DecidableEq

section Lines

variable (crates : Crates)

/-- The digest a line carries. -/
def digestOf (json : List UInt8) : String := hexLower (crates.sha256 json)

/-- The line of a record, without its newline. -/
def encodeLine (record : SidecarRecord) : List UInt8 :=
  lineStart ++ Utf8.encode (digestOf crates (crates.toJson record)) ++
    space :: crates.toJson record

/-- `parse_line`. -/
def parseLine (line : List UInt8) : Option SidecarRead := do
  guard (Utf8.Valid line)
  let rest ← Json.strip lineStart line
  let (digest, json) ← splitOnce space rest
  guard (Utf8.encode (digestOf crates json) = digest)
  let record ← crates.fromJson json
  record.intoRead

/-- One complete line, and what it turned out to hold. Where a verified line was found behind
something else, the offset it starts at comes with it. -/
inductive Line where
  | record (read : SidecarRead)
  | afterTornWrite (read : SidecarRead) (offset : Nat)
  | afterDamage (read : SidecarRead) (offset : Nat)
  | corrupt
deriving DecidableEq

/-- `is_torn_write`: whether a fragment is what an interrupted write leaves behind. -/
def isTornWrite (fragment start : List UInt8) : Bool :=
  let fragment := fragment.dropWhile (· = 0)
  fragment.isEmpty || start.isPrefixOf fragment || fragment.isPrefixOf start

/-- Every place after the first byte where a line's start stands. -/
def startsIn (line : List UInt8) : List Nat :=
  (List.range' 1 (line.length - 1)).filter fun offset => lineStart.isPrefixOf (line.drop offset)

/-- `read_line`: reads one line, and looks behind whatever is in front of a line for the line
itself. The first place whose remainder verifies is the line. -/
def readLine (line : List UInt8) : Line :=
  match parseLine crates line with
  | some read => .record read
  | none =>
      let found := (startsIn line).findSome? fun offset =>
        (parseLine crates (line.drop offset)).map fun read => (offset, read)
      match found with
      | some (offset, read) =>
          if isTornWrite (line.take offset) lineStart then .afterTornWrite read offset
          else .afterDamage read offset
      | none => .corrupt

/-- `digest_at`: the digest carried by the verified line that starts at an offset. -/
def digestAt (line : List UInt8) (offset : Nat) : Option String :=
  let start := offset + lineTag.length + 1
  if start + 64 ≤ line.length then Utf8.decode ((line.drop start).take 64) else none

/-- What a pass over the sidecar counted, without the reads themselves. -/
structure ScanTally where
  records : Nat
  corruptLines : Nat
  tornTailBytes : Nat
  tornWrites : Nat
  lastVerified : Option Tip
deriving DecidableEq

/-- The tally a pass starts with. -/
def ScanTally.empty : ScanTally := ⟨0, 0, 0, 0, none⟩

/-- The loop of `scan_from` over complete lines; `position` is where the next line starts. -/
def scanLines {σ : Type} (each : σ → SidecarRead → Except StorageError σ) :
    List (List UInt8) → Nat → ScanTally → σ → Except StorageError (σ × ScanTally)
  | [], _, tally, state => .ok (state, tally)
  | complete :: rest, position, tally, state =>
      let position := position + complete.length + 1
      let hand (read : SidecarRead) (offset : Nat) (tally : ScanTally) := do
        let tally := { tally with
          records := tally.records + 1
          lastVerified :=
            match digestAt complete offset with
            | some digest => some ⟨position, digest⟩
            | none => tally.lastVerified }
        let state ← each state read
        scanLines each rest position tally state
      -- an empty line is neither a record nor damage
      if complete = [] then scanLines each rest position tally state
      else
        match readLine crates complete with
        | .record read => hand read 0 tally
        | .afterTornWrite read offset =>
            hand read offset { tally with tornWrites := tally.tornWrites + 1 }
        | .afterDamage read offset =>
            hand read offset { tally with corruptLines := tally.corruptLines + 1 }
        | .corrupt =>
            scanLines each rest position { tally with corruptLines := tally.corruptLines + 1 } state

/-- `Sidecar::scan_from`: verifies every line from an offset on, and hands each read that
verifies to `each`. What follows the last newline is a write that did not finish. -/
def scanFrom {σ : Type} (file : List UInt8) (offset : Nat)
    (each : σ → SidecarRead → Except StorageError σ) (state : σ) :
    Except StorageError (σ × ScanTally) :=
  let split := lines newline (file.drop offset)
  (scanLines crates each split.1 offset ScanTally.empty state).map fun (state, tally) =>
    (state, { tally with tornTailBytes := split.2.length })

/-- `MAX_CHECKED_LINE`: the longest line `ends_with_line` looks back over. -/
def maxCheckedLine : Nat := 64 * 1024

/-- `Sidecar::ends_with_line`: whether the complete line ending at `tip.lineEnd` carries
`tip.digest`. -/
def endsWithLine (file : List UInt8) (tip : Tip) : Bool :=
  if tip.lineEnd = 0 ∨ file.length < tip.lineEnd then false
  else
    let start := tip.lineEnd - maxCheckedLine
    let window := (file.drop start).take (tip.lineEnd - start)
    if window.getLast? = some newline then
      let complete := lines newline window.dropLast
      let needle := lineStart ++ Utf8.encode tip.digest ++ [space]
      -- no newline in the window: the line is too long to be checked
      if complete.1 = [] ∧ start ≠ 0 then false
      else decide (needle <:+: complete.2)
    else false

/-- How a write to the sidecar goes wrong: `write_all` fails with some of the buffer in the
file, or `sync_all` or `stream_position` fails with all of it there. -/
inductive SidecarFault where
  | write (kept : Nat) (error : String)
  | sync (error : String)
  | position (error : String)
deriving DecidableEq

/-- `Sidecar::append_records`: one buffer, one write and one fsync for a batch. Returns the
outcome, the handle and the file. -/
def Sidecar.appendRecords (fault : Option SidecarFault) (sidecar : Sidecar) (file : List UInt8)
    (reads : List SidecarRead) : Except StorageError Unit × Sidecar × List UInt8 :=
  match reads.mapM fun read => SidecarRecord.of read.read read.recordedAt with
  | .error error => (.error error, sidecar, file)
  | .ok records =>
      match records.getLast? with
      | none => (.ok (), sidecar, file)
      | some last =>
          let buffer := unlines newline (records.map (encodeLine crates))
          match fault with
          -- the tip is moved behind the last thing that can fail
          | some (.write kept error) =>
              (.error (.sidecar ("appending to " ++ sidecar.path ++ ": " ++ error)), sidecar,
                file ++ buffer.take kept)
          | some (.sync error) =>
              (.error (.sidecar ("fsync " ++ sidecar.path ++ ": " ++ error)), sidecar,
                file ++ buffer)
          | some (.position error) =>
              (.error (.sidecar ("locating the end of " ++ sidecar.path ++ ": " ++ error)), sidecar,
                file ++ buffer)
          | none =>
              let tip : Tip :=
                ⟨(file ++ buffer).length, digestOf crates (crates.toJson last)⟩
              (.ok (), { sidecar with tip := some tip }, file ++ buffer)

end Lines

end Splitforge.Storage
