import Splitforge.Thingmagic.Reassembly

/-!
# Streams in chunks

A serial port cuts a stream anywhere. What comes of feeding the pieces does not depend on the
cuts, except for how often noise was found out of step; and a stream of whole frames comes out as
those frames, with nothing counted against it and nothing left.
-/

namespace Splitforge.Thingmagic

open Splitforge.Library

/-! ## Turns of the loop -/

/-- Scans that stay related in what a turn counts and hands over stay so in a turn. -/
theorem rel_next {related : Scan → Scan → Prop} {scan scan' : Scan}
    (hemit : ∀ response, related (scan.emit response) (scan'.emit response))
    (hcount : ∀ error skip, related ((scan.count error).discard skip)
      ((scan'.count error).discard skip))
    (habandon : ∀ skip, related (scan.abandon.discard skip) (scan'.abandon.discard skip))
    (incomplete : Incomplete) (remaining : List UInt8) :
    Option.Rel (Scanner.Alike related) (scan.next incomplete remaining)
      (scan'.next incomplete remaining) := by
  unfold Scan.next
  split
  · exact .none
  · split
    · exact .some ⟨hemit _, rfl⟩
    · split
      · exact .none
      · exact .some ⟨habandon _, rfl⟩
    · exact .some ⟨hcount _ _, rfl⟩

/-- A scan behind another: what both counted and handed over. -/
def Scan.after (before : Stats) (emitted : List Response) (scan : Scan) : Scan :=
  ⟨before.add scan.stats, emitted ++ scan.emitted⟩

/-- A scan that starts with something counted counts on from there. -/
theorem run_after (before : Stats) (emitted : List Response) (incomplete : Incomplete)
    (scan : Scan) (remaining : List UInt8) :
    (scanner incomplete).run (scan.after before emitted) remaining =
      (((scanner incomplete).run scan remaining).1.after before emitted,
        ((scanner incomplete).run scan remaining).2) := by
  have hnext : ∀ (scan scan' : Scan) (remaining : List UInt8),
      scan' = scan.after before emitted →
      Option.Rel (Scanner.Alike fun scan scan' : Scan => scan' = scan.after before emitted)
        ((scanner incomplete).next scan remaining) ((scanner incomplete).next scan' remaining) := by
    rintro scan _ remaining rfl
    refine rel_next (fun response => ?_) (fun error skip => ?_) (fun skip => ?_) _ _
    · simp [Scan.emit, Scan.after, Stats.add, Nat.add_assoc]
    · cases error <;> simp [Scan.count, Scan.discard, Scan.after, Stats.add, Nat.add_assoc]
    · simp [Scan.abandon, Scan.discard, Scan.after, Stats.add, Nat.add_assoc]
  obtain ⟨hstate, hrest⟩ := Scanner.alike_run hnext rfl remaining
  exact Prod.ext hstate hrest.symm

/-- Feeding a reassembler is feeding its scanner, with what the reassembler has counted so far. -/
theorem feed_all_eq (reassembler : Reassembler) (chunks : List (List UInt8)) :
    reassembler.feedAll chunks =
      let held := chunks.foldl (scanner .wait).feed
        (⟨reassembler.stats, []⟩, reassembler.buffer)
      (⟨held.2, held.1.stats⟩, held.1.emitted) := by
  have hfold : ∀ (chunks : List (List UInt8)) (reassembler : Reassembler)
      (emitted : List Response),
      chunks.foldl Reassembler.feedNext (reassembler, emitted) =
        let held := chunks.foldl (scanner .wait).feed
          (⟨reassembler.stats, emitted⟩, reassembler.buffer)
        (⟨held.2, held.1.stats⟩, held.1.emitted) := by
    intro chunks
    induction chunks with
    | nil => exact fun _ _ => rfl
    | cons chunk chunks ih =>
        intro reassembler emitted
        have hbefore : (⟨reassembler.stats, emitted⟩ : Scan) =
            (⟨.zero, []⟩ : Scan).after reassembler.stats emitted := by
          simp [Scan.after, Stats.add, Stats.zero]
        have hrun := run_after reassembler.stats emitted .wait ⟨.zero, []⟩
          (reassembler.buffer ++ chunk)
        rw [List.foldl_cons, List.foldl_cons, Scanner.feed, hbefore, hrun]
        exact ih _ _
  exact hfold chunks reassembler []

/-! ## Whole frames -/

/-- The scanner takes whole frames and waits for the rest of parts. -/
theorem frames_scanner : (scanner .wait).Frames ReaderFrame.bytes
    (fun scan frame => scan.emit frame.response) where
  whole scan frame more := by
    have hdecode := decode_bytes_append frame more
    have hne : frame.bytes ++ more ≠ [] := List.cons_ne_nil _ _
    show Scan.next .wait scan (frame.bytes ++ more) = _
    rw [Scan.next, if_neg hne, hdecode]
    simp only [List.drop_left]
  part scan frame front back hbytes hback := by
    obtain ⟨needed, hdecode⟩ := decode_part hbytes hback
    show Scan.next .wait scan front = none
    unfold Scan.next
    rw [hdecode]
    exact ite_self _

theorem foldl_emit (frames : List ReaderFrame) (scan : Scan) :
    frames.foldl (fun scan frame => scan.emit frame.response) scan =
      ⟨{ scan.stats with frames := scan.stats.frames + frames.length },
        scan.emitted ++ frames.map ReaderFrame.response⟩ := by
  induction frames generalizing scan with
  | nil => simp
  | cons frame frames ih =>
      rw [List.foldl_cons, ih]
      simp [Scan.emit, Nat.add_assoc, Nat.add_comm 1]

/-- A clean stream: however the bytes of whole frames are cut into chunks, feeding them hands over
exactly those frames in order, counts nothing else and leaves nothing pending. -/
theorem feed_clean_stream (frames : List ReaderFrame) (stats : Stats)
    {chunks : List (List UInt8)} (hchunks : chunks.flatten = frames.flatMap ReaderFrame.bytes) :
    Reassembler.feedAll ⟨[], stats⟩ chunks =
      (⟨[], { stats with frames := stats.frames + frames.length }⟩,
        frames.map ReaderFrame.response) := by
  have hfeed := frames_scanner.feed_chunks hchunks ⟨stats, []⟩
  rw [feed_all_eq, hfeed, foldl_emit]
  rfl

/-- A frame that carries a whole frame in its data. -/
def nestedFrame : ReaderFrame where
  response := ⟨0x22, 0, (ReaderFrame.mk ⟨0x29, 0, [0x5A]⟩ (by decide)).bytes⟩
  fits := by decide

/-- The nested frame comes out when it is cut behind the frame it carries. -/
theorem feed_clean_stream_nested :
    Reassembler.feedAll .new [nestedFrame.bytes.take 14, nestedFrame.bytes.drop 14] =
      (⟨[], ⟨1, 0, 0, 0, 0, 0⟩⟩, [nestedFrame.response]) :=
  feed_clean_stream [nestedFrame] .zero (by decide +kernel)

/-! ## Any bytes -/

/-- A scan without how often it was out of step. -/
def Scan.settled (scan : Scan) : Scan :=
  { scan with stats := { scan.stats with notSynchronized := 0 } }

/-- Scans that agree in all but how often they were out of step. -/
def Settled (scan scan' : Scan) : Prop :=
  scan.settled = scan'.settled

/-- How many bytes come before the next start byte. -/
def noise (bytes : List UInt8) : Nat :=
  bytes.findIdx (· = soh)

theorem skipped_cons (first : UInt8) (rest : List UInt8) :
    skipped (first :: rest) = noise rest + 1 := by
  rw [skipped, resynchronize, List.tail_cons, noise, List.findIdx_eq_getD_findIdx?]
  cases rest.findIdx? (· = soh) <;> rfl

/-- With more behind it as much is skipped, or everything is and what comes up to the next start
byte besides. -/
theorem skipped_append {remaining : List UInt8} (h : remaining ≠ []) (more : List UInt8) :
    (skipped remaining ≤ remaining.length ∧ skipped (remaining ++ more) = skipped remaining) ∨
    (skipped remaining = remaining.length ∧
      skipped (remaining ++ more) = remaining.length + noise more) := by
  match remaining with
  | first :: rest =>
      have happend : noise (rest ++ more) =
          if noise rest < rest.length then noise rest else noise more + rest.length :=
        List.findIdx_append
      have hle : noise rest ≤ rest.length := List.findIdx_le_length
      rw [List.cons_append, skipped_cons, skipped_cons, List.length_cons, happend]
      by_cases hlt : noise rest < rest.length
      · rw [if_pos hlt]
        exact Or.inl ⟨Nat.succ_le_succ hle, rfl⟩
      · rw [if_neg hlt]
        exact Or.inr ⟨by omega, by omega⟩

/-- A turn does to settled scans what it does to scans. -/
theorem settled_next (incomplete : Incomplete) {scan scan' : Scan} (h : Settled scan scan')
    (remaining : List UInt8) :
    Option.Rel (Scanner.Alike Settled) (scan.next incomplete remaining)
      (scan'.next incomplete remaining) := by
  have hboth {f : Scan → Scan} (hf : ∀ scan, (f scan).settled = f scan.settled) :
      Settled (f scan) (f scan') := by
    rw [Settled, hf, hf, h]
  refine rel_next (fun response => ?_) (fun error skip => ?_) (fun skip => ?_) _ _
  · exact @hboth (fun scan => scan.emit response) fun _ => rfl
  · cases error with
    | notSynchronized found => exact @hboth (fun scan => scan.discard skip) fun _ => rfl
    | badCrc declared computed =>
        exact @hboth (fun scan => (scan.count (.badCrc declared computed)).discard skip)
          fun _ => rfl
    | dataTooLong declared =>
        exact @hboth (fun scan => (scan.count (.dataTooLong declared)).discard skip) fun _ => rfl
  · exact @hboth (fun scan => scan.abandon.discard skip) fun _ => rfl

/-- Noise at the front is thrown away. -/
theorem run_noise (incomplete : Incomplete) (scan : Scan) (bytes : List UInt8) :
    Scanner.Alike Settled ((scanner incomplete).run scan bytes)
      ((scanner incomplete).run (scan.discard (noise bytes)) (bytes.drop (noise bytes))) := by
  have hnext : ∀ (scan scan' : Scan) (remaining : List UInt8), Settled scan scan' →
      Option.Rel (Scanner.Alike Settled) ((scanner incomplete).next scan remaining)
        ((scanner incomplete).next scan' remaining) :=
    fun _ _ remaining h => settled_next incomplete h remaining
  match bytes with
  | [] => exact ⟨rfl, rfl⟩
  | first :: rest =>
      by_cases hsoh : first = soh
      · have hnone : noise (first :: rest) = 0 := by
          rw [noise, List.findIdx_cons, hsoh]
          rfl
        rw [hnone]
        exact ⟨rfl, rfl⟩
      · have hskipped : noise (first :: rest) = skipped (first :: rest) := by
          rw [skipped_cons, noise, List.findIdx_cons, decide_eq_false hsoh]
          rfl
        have hstep : (scanner incomplete).next scan (first :: rest) =
            some ((scan.count (.notSynchronized first)).skip (first :: rest)) := by
          show Scan.next incomplete scan (first :: rest) = _
          unfold Scan.next
          rw [if_neg (List.cons_ne_nil _ _), decode_of_ne_soh hsoh]
        have hsettled : Settled
            ((scan.count (.notSynchronized first)).discard (skipped (first :: rest)))
            (scan.discard (skipped (first :: rest))) := rfl
        rw [Scanner.run_eq_run hstep, hskipped]
        exact Scanner.alike_run hnext hsettled _

/-- A buffer that is not waited for is looked at the same with more behind it. -/
theorem next_append {scan : Scan} {remaining : List UInt8} {after : Scan × List UInt8}
    (h : scan.next .wait remaining = some after) (more : List UInt8) :
    decode (remaining ++ more) = decode remaining := by
  refine decode_append (fun needed hneeded => ?_) more
  unfold Scan.next at h
  rw [hneeded] at h
  exact absurd (h.symm.trans (ite_self _)) (Option.some_ne_none _)

/-- The scanner does not decide on what is yet to come, but for counting how often it was out of
step. -/
theorem patient_scanner : (scanner .wait).Patient Settled where
  equivalence := ⟨fun _ => rfl, Eq.symm, Eq.trans⟩
  next _ _ remaining h := settled_next .wait h remaining
  more := by
    intro scan remaining scan' rest h more
    have hnext : scan.next .wait remaining = some (scan', rest) := h
    have hdecodeMore := next_append hnext more
    obtain ⟨hnil, hcases⟩ := Scan.next_cases hnext
    have hne : remaining ++ more ≠ [] := List.append_ne_nil_of_left_ne_nil hnil more
    rcases hcases with ⟨response, consumed, hdecode, hafter⟩ | ⟨error, hdecode, hafter⟩ |
      ⟨_, _, hmode, _⟩
    · -- a frame that is whole is the same frame with more behind it
      obtain ⟨rfl, rfl⟩ := Prod.mk.inj hafter
      left
      show Scan.next .wait scan (remaining ++ more) = _
      rw [Scan.next, if_neg hne, hdecodeMore, hdecode]
      simp only [List.drop_append_of_le_length (consumed_of_decode hdecode).2]
    · obtain ⟨rfl, rfl⟩ := Prod.mk.inj hafter
      have hstep : (scanner .wait).next scan (remaining ++ more) =
          some ((scan.count error).skip (remaining ++ more)) := by
        show Scan.next .wait scan (remaining ++ more) = _
        rw [Scan.next, if_neg hne, hdecodeMore, hdecode]
      rcases skipped_append hnil more with ⟨hle, hsame⟩ | ⟨hall, hmore⟩
      · -- the next start byte is already there
        left
        rw [hstep, Scan.skip, hsame, List.drop_append_of_le_length hle]
      · -- everything is skipped, and so is what comes up to the next start byte
        right
        refine ⟨by rw [hall, List.drop_length], ?_⟩
        have hnoise := run_noise .wait ((scan.count error).discard remaining.length) more
        have hdiscard : ((scan.count error).discard remaining.length).discard (noise more) =
            (scan.count error).discard (remaining.length + noise more) := by
          simp only [Scan.discard, Nat.add_assoc]
        rw [hall, Scanner.run_eq_run hstep, hmore, List.drop_append, ← hdiscard]
        rwa [List.drop_eq_nil_of_le (Nat.le_add_right _ _), List.nil_append,
          Nat.add_sub_cancel_left]
    · cases hmode

/-- Whatever bytes come in, two ways of cutting them into chunks hand over the same frames, count
the same bad checksums, lengths and discarded bytes, and hold the same bytes. -/
theorem feed_chunking {chunks chunks' : List (List UInt8)}
    (hchunks : chunks.flatten = chunks'.flatten) :
    (Reassembler.new.feedAll chunks).2 = (Reassembler.new.feedAll chunks').2 ∧
      (Reassembler.new.feedAll chunks).1.stats.badCrc =
        (Reassembler.new.feedAll chunks').1.stats.badCrc ∧
      (Reassembler.new.feedAll chunks).1.stats.dataTooLong =
        (Reassembler.new.feedAll chunks').1.stats.dataTooLong ∧
      (Reassembler.new.feedAll chunks).1.stats.discardedBytes =
        (Reassembler.new.feedAll chunks').1.stats.discardedBytes ∧
      (Reassembler.new.feedAll chunks).1.buffer =
        (Reassembler.new.feedAll chunks').1.buffer := by
  have hall (chunks : List (List UInt8)) := patient_scanner.feed_chunks ⟨.zero, []⟩ [] chunks
  have hrun : (scanner .wait).run ⟨.zero, []⟩ [] = (⟨.zero, []⟩, []) :=
    Scanner.run_eq_self Scanner.next_nil
  simp only [hrun, List.nil_append] at hall
  obtain ⟨hstate, hrest⟩ := hall chunks
  obtain ⟨hstate', hrest'⟩ := hall chunks'
  rw [hchunks] at hstate hrest
  have hsettled : Scan.settled _ = Scan.settled _ := hstate.trans hstate'.symm
  have hemitted := congrArg Scan.emitted hsettled
  have hbadCrc := congrArg (fun scan => scan.stats.badCrc) hsettled
  have hdataTooLong := congrArg (fun scan => scan.stats.dataTooLong) hsettled
  have hdiscarded := congrArg (fun scan => scan.stats.discardedBytes) hsettled
  rw [feed_all_eq, feed_all_eq]
  exact ⟨hemitted, hbadCrc, hdataTooLong, hdiscarded, hrest.trans hrest'.symm⟩

/-- A byte out of step, a start byte and a length come to the same in one piece and in three. -/
theorem feed_chunking_pieces :
    (Reassembler.new.feedAll [[0x00, 0xFF, 0x01]]).2 =
      (Reassembler.new.feedAll [[0x00], [0xFF], [0x01]]).2 :=
  (feed_chunking (by decide)).1

end Splitforge.Thingmagic
