import Splitforge.Thingmagic.Frame
import Splitforge.Library.Scanner

/-!
# Reassembly

A byte stream becomes frames. A reassembler holds the bytes that are not settled yet; each feed
puts bytes behind them and scans: whole frames come out, what is not a frame is skipped up to the
next start byte, and a frame that is cut off is waited for.
-/

namespace Splitforge.Thingmagic

open Splitforge.Library

/-- What a reassembler has seen since it was created. -/
@[ext]
structure Stats where
  frames : Nat
  notSynchronized : Nat
  badCrc : Nat
  dataTooLong : Nat
  abandoned : Nat
  discardedBytes : Nat
deriving DecidableEq

/-- `Stats::default`. -/
def Stats.zero : Stats :=
  ⟨0, 0, 0, 0, 0, 0⟩

/-- What to do with a candidate frame that has a legal length and too few bytes. -/
inductive Incomplete where
  | wait | giveUp
deriving DecidableEq

/-- Holds partial frames between reads, and hands over whole ones. -/
structure Reassembler where
  buffer : List UInt8
  stats : Stats

/-- `Reassembler::new`. -/
def Reassembler.new : Reassembler :=
  ⟨[], .zero⟩

/-! ## Scanning -/

/-- What a scan has counted and handed over. -/
structure Scan where
  stats : Stats
  emitted : List Response

/-- Hands over a frame. -/
def Scan.emit (scan : Scan) (response : Response) : Scan :=
  ⟨{ scan.stats with frames := scan.stats.frames + 1 }, scan.emitted ++ [response]⟩

/-- Counts an error. -/
def Scan.count (scan : Scan) (error : FrameError) : Scan :=
  let stats := scan.stats
  { scan with stats := match error with
      | .notSynchronized _ => { stats with notSynchronized := stats.notSynchronized + 1 }
      | .badCrc _ _ => { stats with badCrc := stats.badCrc + 1 }
      | .dataTooLong _ => { stats with dataTooLong := stats.dataTooLong + 1 } }

/-- Counts a partial frame that is given up on. -/
def Scan.abandon (scan : Scan) : Scan :=
  { scan with stats := { scan.stats with abandoned := scan.stats.abandoned + 1 } }

/-- Counts bytes that are thrown away. -/
def Scan.discard (scan : Scan) (skip : Nat) : Scan :=
  { scan with stats := { scan.stats with discardedBytes := scan.stats.discardedBytes + skip } }

/-- How many bytes are skipped when the first is ruled out: up to the next start byte, or all. -/
def skipped (remaining : List UInt8) : Nat :=
  (resynchronize remaining).getD remaining.length

/-- Skips to the next start byte. -/
def Scan.skip (scan : Scan) (remaining : List UInt8) : Scan × List UInt8 :=
  (scan.discard (skipped remaining), remaining.drop (skipped remaining))

/-- One turn of the loop of `scan`, none where it breaks. -/
def Scan.next (incomplete : Incomplete) (scan : Scan) (remaining : List UInt8) :
    Option (Scan × List UInt8) :=
  if remaining = [] then none
  else match decode remaining with
    | .ok (.frame response consumed) => some (scan.emit response, remaining.drop consumed)
    | .ok (.incomplete _) =>
        match incomplete with
        | .wait => none
        | .giveUp => some (scan.abandon.skip remaining)
    | .error error => some ((scan.count error).skip remaining)

/-- Something is skipped. -/
theorem skipped_pos {remaining : List UInt8} (h : remaining ≠ []) : 0 < skipped remaining := by
  unfold skipped resynchronize
  cases remaining.tail.findIdx? (· = soh) with
  | none => exact List.length_pos_of_ne_nil h
  | some index => exact Nat.succ_pos index

/-- What one turn of the loop does: it hands over a frame, or counts something and skips. -/
theorem Scan.next_cases {incomplete : Incomplete} {scan : Scan} {remaining : List UInt8}
    {after : Scan × List UInt8} (h : scan.next incomplete remaining = some after) :
    remaining ≠ [] ∧
    ((∃ response consumed, decode remaining = .ok (.frame response consumed) ∧
      after = (scan.emit response, remaining.drop consumed)) ∨
    (∃ error, decode remaining = .error error ∧ after = (scan.count error).skip remaining) ∨
    ∃ needed, decode remaining = .ok (.incomplete needed) ∧ incomplete = .giveUp ∧
      after = scan.abandon.skip remaining) := by
  unfold Scan.next at h
  by_cases hnil : remaining = []
  · rw [if_pos hnil] at h
    cases h
  · rw [if_neg hnil] at h
    refine ⟨hnil, ?_⟩
    cases hdecode : decode remaining with
    | error error =>
        rw [hdecode] at h
        exact Or.inr (Or.inl ⟨error, rfl, (Option.some.inj h).symm⟩)
    | ok decoded =>
        rw [hdecode] at h
        cases decoded with
        | frame response consumed =>
            exact Or.inl ⟨response, consumed, rfl, (Option.some.inj h).symm⟩
        | incomplete needed =>
            cases incomplete with
            | wait => cases h
            | giveUp => exact Or.inr (Or.inr ⟨needed, rfl, rfl, (Option.some.inj h).symm⟩)

/-- Skipping leaves fewer bytes. -/
theorem length_skip_lt {remaining : List UInt8} (h : remaining ≠ []) (scan : Scan) :
    (scan.skip remaining).2.length < remaining.length := by
  have hskipped := skipped_pos h
  have hpos := List.length_pos_of_ne_nil h
  show (remaining.drop (skipped remaining)).length < remaining.length
  rw [List.length_drop]
  omega

/-- The loop of `scan`, as a scanner: every turn leaves fewer bytes. -/
def scanner (incomplete : Incomplete) : Scanner UInt8 Scan where
  next := Scan.next incomplete
  shorter := by
    intro scan remaining scan' rest h
    obtain ⟨hnil, ⟨response, consumed, hdecode, hafter⟩ | ⟨error, _, hafter⟩ |
      ⟨_, _, _, hafter⟩⟩ := Scan.next_cases h
    · obtain ⟨hpos, hle⟩ := consumed_of_decode hdecode
      rw [(Prod.mk.inj hafter).2, List.length_drop]
      omega
    · rw [(Prod.mk.inj hafter).2]
      exact length_skip_lt hnil (scan.count error)
    · rw [(Prod.mk.inj hafter).2]
      exact length_skip_lt hnil scan.abandon

/-! ## The reassembler -/

/-- Adds what one scan counted. -/
def Stats.add (stats counted : Stats) : Stats where
  frames := stats.frames + counted.frames
  notSynchronized := stats.notSynchronized + counted.notSynchronized
  badCrc := stats.badCrc + counted.badCrc
  dataTooLong := stats.dataTooLong + counted.dataTooLong
  abandoned := stats.abandoned + counted.abandoned
  discardedBytes := stats.discardedBytes + counted.discardedBytes

/-- `scan`: hands over the whole frames in the buffer, and keeps what is not settled. -/
def Reassembler.scan (incomplete : Incomplete) (reassembler : Reassembler) :
    Reassembler × List Response :=
  let (scan, rest) := (scanner incomplete).run ⟨.zero, []⟩ reassembler.buffer
  (⟨rest, reassembler.stats.add scan.stats⟩, scan.emitted)

/-- `feed`: feeds bytes in, and hands over every complete frame that results. -/
def Reassembler.feed (reassembler : Reassembler) (bytes : List UInt8) :
    Reassembler × List Response :=
  { reassembler with buffer := reassembler.buffer ++ bytes }.scan .wait

/-- `flush`: settles everything held, because nothing more is coming for it. -/
def Reassembler.flush (reassembler : Reassembler) : Reassembler × List Response :=
  reassembler.scan .giveUp

/-- `reset`: drops any partial frame, keeping the statistics. -/
def Reassembler.reset (reassembler : Reassembler) : Reassembler :=
  { reassembler with buffer := [] }

/-- One more feed, with the frames handed over so far. -/
def Reassembler.feedNext (state : Reassembler × List Response) (bytes : List UInt8) :
    Reassembler × List Response :=
  let (reassembler, emitted) := state.1.feed bytes
  (reassembler, state.2 ++ emitted)

/-- Feeds of chunks, one after another, and all the frames they hand over. -/
def Reassembler.feedAll (reassembler : Reassembler) (chunks : List (List UInt8)) :
    Reassembler × List Response :=
  chunks.foldl feedNext (reassembler, [])

end Splitforge.Thingmagic
