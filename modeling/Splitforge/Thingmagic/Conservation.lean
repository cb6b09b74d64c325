import Splitforge.Library.Runs
import Splitforge.Thingmagic.Reassembly
import Mathlib.Algebra.GroupWithZero.Nat

/-!
# No byte is lost in reassembly

A byte that is fed in comes out in a frame, is counted as discarded, or is still held. One turn of
the loop keeps that, so a scan does, and so does any sequence of calls. What is held between calls
is less than one frame.
-/

namespace Splitforge.Thingmagic

open Splitforge.Library

/-! ## Frames and skips -/

/-- The length of the frame a response came in. -/
def Response.frameLen (response : Response) : Nat :=
  responseHeaderLen + response.data.length + crcLen

/-- A frame takes as many bytes as its response came in. -/
theorem consumed_eq_frame_len {input : List UInt8} {response : Response} {consumed : Nat}
    (h : decode input = .ok (.frame response consumed)) : consumed = response.frameLen := by
  rcases decode_cases input with ⟨needed, hneeded⟩ | ⟨first, rest, rfl, hsoh⟩ |
    ⟨dataLen, rest, rfl, hmax⟩ | ⟨dataLen, rest, rfl, hmax, hlength⟩
  · rw [hneeded] at h
    cases h
  · rw [decode_of_ne_soh hsoh] at h
    cases h
  · rw [decode_of_too_long hmax] at h
    cases h
  · rw [decode_of_whole hmax hlength] at h
    unfold verify at h
    simp only at h
    split at h
    · cases h
    · cases h
      have hdata : (slice (soh :: dataLen :: rest) responseHeaderLen
          (responseHeaderLen + dataLen.toNat)).length = dataLen.toNat := by
        rw [slice, List.length_drop, List.length_take]
        omega
      rw [Response.frameLen, hdata]

/-- What is waited for is less than the largest frame. -/
theorem length_of_incomplete {input : List UInt8} {needed : Nat}
    (h : decode input = .ok (.incomplete needed)) : input.length < maxFrameLen := by
  match input with
  | [] => exact Nat.succ_pos _
  | [first] => exact Nat.succ_lt_succ (Nat.succ_pos _)
  | first :: dataLen :: rest =>
      unfold decode at h
      dsimp only at h
      split_ifs at h with hsoh hmax hshort
      · have hle := Nat.not_lt.mp hmax
        unfold maxFrameLen
        omega
      · unfold verify at h
        simp only at h
        split at h <;> cases h

/-- No more is skipped than there is. -/
theorem skipped_le {remaining : List UInt8} (h : remaining ≠ []) :
    skipped remaining ≤ remaining.length := by
  obtain ⟨first, rest, rfl⟩ := List.exists_cons_of_ne_nil h
  unfold skipped resynchronize
  rw [List.tail_cons, List.length_cons]
  cases hfound : rest.findIdx? (· = soh) with
  | none => exact Nat.le_refl _
  | some index =>
      have hindex := (List.findIdx?_eq_some_iff_findIdx_eq.mp hfound).1
      exact Nat.succ_le_succ (Nat.le_of_lt hindex)

/-! ## Scans -/

/-- The bytes that came out in frames. -/
def handedOver (emitted : List Response) : Nat :=
  (emitted.map Response.frameLen).sum

theorem handed_over_append (emitted emitted' : List Response) :
    handedOver (emitted ++ emitted') = handedOver emitted + handedOver emitted' := by
  rw [handedOver, List.map_append, List.sum_append]
  rfl

/-- The bytes a scan accounts for: in frames, thrown away, or still to be looked at. -/
def Scan.accounted (scan : Scan) (remaining : List UInt8) : Nat :=
  handedOver scan.emitted + scan.stats.discardedBytes + remaining.length

/-- Skipping accounts for what is skipped. -/
theorem accounted_skip (scan : Scan) {remaining : List UInt8} (h : remaining ≠ []) :
    (scan.skip remaining).1.accounted (scan.skip remaining).2 = scan.accounted remaining := by
  have hle := skipped_le h
  show handedOver scan.emitted + (scan.stats.discardedBytes + skipped remaining) +
    (remaining.drop (skipped remaining)).length =
      handedOver scan.emitted + scan.stats.discardedBytes + remaining.length
  rw [List.length_drop]
  omega

/-- A turn of the loop accounts for every byte. -/
theorem accounted_next {incomplete : Incomplete} {scan scan' : Scan}
    {remaining rest : List UInt8} (h : scan.next incomplete remaining = some (scan', rest)) :
    scan'.accounted rest = scan.accounted remaining := by
  obtain ⟨hnil, ⟨response, consumed, hdecode, hafter⟩ | ⟨error, _, hafter⟩ |
    ⟨_, _, _, hafter⟩⟩ := Scan.next_cases h
  · obtain ⟨rfl, rfl⟩ := Prod.mk.inj hafter
    have hconsumed := consumed_eq_frame_len hdecode
    have hle := (consumed_of_decode hdecode).2
    have hframe : handedOver (scan.emitted ++ [response]) =
        handedOver scan.emitted + response.frameLen := handed_over_append _ _
    show handedOver (scan.emitted ++ [response]) + scan.stats.discardedBytes +
      (remaining.drop consumed).length =
        handedOver scan.emitted + scan.stats.discardedBytes + remaining.length
    rw [hframe, List.length_drop]
    omega
  · -- counting an error throws nothing away by itself
    obtain ⟨rfl, rfl⟩ := Prod.mk.inj hafter
    refine (accounted_skip (scan.count error) hnil).trans ?_
    cases error <;> rfl
  · obtain ⟨rfl, rfl⟩ := Prod.mk.inj hafter
    exact accounted_skip scan.abandon hnil

/-- A scan accounts for every byte. -/
theorem accounted_run (incomplete : Incomplete) (scan : Scan) (remaining : List UInt8) :
    ((scanner incomplete).run scan remaining).1.accounted
        ((scanner incomplete).run scan remaining).2 = scan.accounted remaining := by
  refine @Scanner.run_keeps _ _ (scanner incomplete) scan remaining
    (fun scan' rest => scan'.accounted rest = scan.accounted remaining) ?_ rfl
  intro _ _ _ _ hnext h
  exact (accounted_next hnext).trans h

/-- What a scan that waits leaves is less than a frame. -/
theorem length_run_wait (scan : Scan) (remaining : List UInt8) :
    ((scanner .wait).run scan remaining).2.length < maxFrameLen := by
  have hwaits : Scan.next .wait _ _ = none := (scanner .wait).next_run scan remaining
  unfold Scan.next at hwaits
  by_cases hnil : ((scanner .wait).run scan remaining).2 = []
  · rw [hnil]
    exact Nat.succ_pos _
  · rw [if_neg hnil] at hwaits
    split at hwaits
    · cases hwaits
    · rename_i hdecode
      exact length_of_incomplete hdecode
    · cases hwaits

/-- A scan that gives up leaves nothing. -/
theorem run_give_up (scan : Scan) (remaining : List UInt8) :
    ((scanner .giveUp).run scan remaining).2 = [] := by
  have hwaits : Scan.next .giveUp _ _ = none := (scanner .giveUp).next_run scan remaining
  unfold Scan.next at hwaits
  by_contra hnil
  rw [if_neg hnil] at hwaits
  split at hwaits <;> cases hwaits

/-! ## Calls -/

/-- A call of a reassembler. -/
inductive Call where
  | feed (bytes : List UInt8)
  | flush

/-- The bytes a call feeds in. -/
def Call.bytes : Call → List UInt8
  | .feed bytes => bytes
  | .flush => []

/-- `pending`: the bytes held back. -/
def Reassembler.pending (reassembler : Reassembler) : Nat :=
  reassembler.buffer.length

/-- One more call, with the frames handed over so far. -/
def Reassembler.call (state : Reassembler × List Response) (call : Call) :
    Reassembler × List Response :=
  let (reassembler, emitted) := match call with
    | .feed bytes => state.1.feed bytes
    | .flush => state.1.flush
  (reassembler, state.2 ++ emitted)

/-- The bytes a reassembler accounts for. -/
def accounted (state : Reassembler × List Response) : Nat :=
  handedOver state.2 + state.1.stats.discardedBytes + state.1.pending

/-- A scan of a reassembler accounts for what it holds. -/
theorem accounted_scan (incomplete : Incomplete) (reassembler : Reassembler)
    (emitted : List Response) :
    accounted ((reassembler.scan incomplete).1, emitted ++ (reassembler.scan incomplete).2) =
      accounted (reassembler, emitted) := by
  have hrun := accounted_run incomplete ⟨.zero, []⟩ reassembler.buffer
  unfold Scan.accounted at hrun
  unfold accounted Reassembler.scan Stats.add Reassembler.pending
  rw [handed_over_append]
  simp only [handedOver, List.map_nil, List.sum_nil, Stats.zero] at hrun ⊢
  omega

/-- A call accounts for what it feeds in. -/
theorem accounted_call (state : Reassembler × List Response) (call : Call) :
    accounted (Reassembler.call state call) = accounted state + call.bytes.length := by
  obtain ⟨reassembler, emitted⟩ := state
  cases call with
  | feed bytes =>
      refine
        (accounted_scan .wait ⟨reassembler.buffer ++ bytes, reassembler.stats⟩ emitted).trans ?_
      unfold accounted Reassembler.pending
      rw [List.length_append]
      exact (Nat.add_assoc _ _ _).symm
  | flush => exact accounted_scan .giveUp reassembler emitted

/-- Calls account for what they feed in. -/
theorem accounted_calls (calls : List Call) (state : Reassembler × List Response) :
    accounted (run Reassembler.call state calls) =
      accounted state + (calls.map fun call => call.bytes.length).sum := by
  induction calls generalizing state with
  | nil => rfl
  | cons call calls ih =>
      have hrest := ih (Reassembler.call state call)
      rw [accounted_call] at hrest
      rw [List.map_cons, List.sum_cons, ← Nat.add_assoc]
      exact hrest

/-- Every byte fed into a reassembler came out in a frame, was discarded, or is pending. Less than
one frame is pending behind a feed, and nothing behind a flush. Every scan ends, within one turn
for each byte. -/
theorem bytes_conserved (calls : List Call) :
    let (reassembler, emitted) := run Reassembler.call (.new, []) calls
    (calls.map fun call => call.bytes.length).sum =
        (emitted.map Response.frameLen).sum + reassembler.stats.discardedBytes +
          reassembler.pending ∧
      (∀ bytes, (reassembler.feed bytes).1.pending < maxFrameLen) ∧
      reassembler.flush.1.pending = 0 ∧
      ∀ incomplete scan remaining,
        (scanner incomplete).runWithin (remaining.length + 1) scan remaining =
          some ((scanner incomplete).run scan remaining) := by
  have hconserved := accounted_calls calls (.new, [])
  have hstart : accounted (.new, []) = 0 := rfl
  rw [hstart, Nat.zero_add] at hconserved
  refine ⟨hconserved.symm, fun bytes => length_run_wait _ _, ?_, ?_⟩
  · exact List.length_eq_zero_iff.mpr (run_give_up _ _)
  · exact fun incomplete scan remaining => Scanner.run_within_eq (Nat.lt_succ_self _)

end Splitforge.Thingmagic
