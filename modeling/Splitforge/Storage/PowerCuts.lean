import Splitforge.Storage.SidecarScan
import Splitforge.Storage.Checkpoints

/-!
# Scans after power cuts

A power cut leaves the front of a write in the sidecar, sometimes behind zero bytes that the
filesystem had allocated and never filled, and the next write is appended straight onto it. A
scan of the whole file still reads back exactly the lines that were completed. It counts no
damage exactly when no tag was cut short and then had further bytes put between it and the next
line.
-/

namespace Splitforge.Storage

open Splitforge.Domain Splitforge.Library

/-! ## Writes -/

/-- Reads that one append may write: each fits its columns. -/
structure Batch where
  reads : List SidecarRead
  storable : ∀ read ∈ reads, storable read.read = .ok ()

/-- One write to the sidecar: a completed batch, or zero bytes and a proper part of a batch. -/
inductive Write (crates : Crates) where
  | completed (batch : Batch)
  | interrupted (zeros : Nat) (batch : Batch) (kept : Nat)
      (hkept : kept < (batchOf crates batch.reads).length)

namespace Write

variable {crates : Crates}

/-- The zero bytes in front of a write. -/
def zeros : Write crates → Nat
  | .completed _ => 0
  | .interrupted zeros _ _ _ => zeros

/-- The batch a write was to put in the file. -/
def batch : Write crates → Batch
  | .completed batch => batch
  | .interrupted _ batch _ _ => batch

/-- How many bytes of its batch reached the file. -/
def kept : Write crates → Nat
  | .completed batch => (batchOf crates batch.reads).length
  | .interrupted _ _ kept _ => kept

/-- What a write leaves in the file. -/
def bytes (write : Write crates) : List UInt8 :=
  List.replicate write.zeros 0 ++ (batchOf crates write.batch.reads).take write.kept

end Write

/-- The sidecar behind some writes. -/
def sidecarOf {crates : Crates} (writes : List (Write crates)) : List UInt8 :=
  writes.flatMap Write.bytes

/-- The reads whose lines are complete in the first bytes of a batch, and how many bytes of the
line behind them are there. -/
def completeLines (crates : Crates) : List SidecarRead → Nat → List SidecarRead × Nat
  | [], _ => ([], 0)
  | read :: reads, kept =>
      if kept ≤ (lineOf crates read).length then ([], kept)
      else
        let behind := completeLines crates reads (kept - (lineOf crates read).length - 1)
        (read :: behind.1, behind.2)

/-- The lines a write completed, and how much of the next one it left. -/
def Write.lines {crates : Crates} (write : Write crates) : List SidecarRead × Nat :=
  completeLines crates write.batch.reads write.kept

/-- The reads of the lines that some writes completed, in file order. -/
def completedReads {crates : Crates} (writes : List (Write crates)) : List SidecarRead :=
  writes.flatMap fun write => write.lines.1

/-! ## What stands in front of a line -/

/-- What interrupted writes have left behind the last newline: nothing but zero bytes, a tag cut
short behind them, a line cut somewhere behind its tag, or a tag cut short with more behind it. -/
inductive Remains where
  | unfilled | cutInTag | cutBehindTag | mixed
deriving DecidableEq

/-- What is left when zero bytes and the first bytes of a line are added. -/
def Remains.add (zeros count : Nat) : Remains → Remains
  | .unfilled =>
      if count = 0 then .unfilled
      else if count < lineStart.length then .cutInTag
      else .cutBehindTag
  | .cutInTag => if zeros = 0 ∧ count = 0 then .cutInTag else .mixed
  | .cutBehindTag => .cutBehindTag
  | .mixed => .mixed

/-- Every line that is completed stands behind remains in which no cut tag has more behind it. -/
def TagsKept {crates : Crates} : Remains → List (Write crates) → Prop
  | _, [] => True
  | remains, write :: writes =>
      if write.lines.1 = [] then TagsKept (remains.add write.zeros write.lines.2) writes
      else
        remains.add write.zeros 0 ≠ .mixed ∧
          TagsKept (Remains.unfilled.add 0 write.lines.2) writes

/-- The bytes that some remains can be. -/
def Remains.Of : Remains → List UInt8 → Prop
  | .unfilled, fragment => ∃ zeros, fragment = List.replicate zeros 0
  | .cutInTag, fragment => ∃ zeros count, 0 < count ∧ count < lineStart.length ∧
      fragment = List.replicate zeros 0 ++ lineStart.take count
  | .cutBehindTag, fragment => ∃ zeros rest,
      fragment = List.replicate zeros 0 ++ (lineStart ++ rest)
  | .mixed, fragment => ∃ zeros count byte rest, 0 < count ∧ count < lineStart.length ∧
      lineStart[count]? ≠ some byte ∧
      fragment = List.replicate zeros 0 ++ (lineStart.take count ++ byte :: rest)

/-! ## Torn or damaged -/

variable {crates : Crates}

theorem drop_zeros (zeros : Nat) (rest : List UInt8) :
    (List.replicate zeros (0 : UInt8) ++ rest).dropWhile (· = 0) = rest.dropWhile (· = 0) := by
  induction zeros with
  | zero => rfl
  | succ zeros ih => simp [List.replicate_succ, ih]

/-- A part of a tag behind zero bytes is where the bytes behind the zeros start. -/
theorem drop_zeros_tag {count : Nat} (hcount : 0 < count) (zeros : Nat) (rest : List UInt8) :
    (List.replicate zeros (0 : UInt8) ++ (lineStart.take count ++ rest)).dropWhile (· = 0) =
      lineStart.take count ++ rest := by
  obtain ⟨count, rfl⟩ := Nat.exists_eq_succ_of_ne_zero hcount.ne'
  rw [drop_zeros, line_start_eq, List.take_succ_cons, List.cons_append, List.dropWhile_cons]
  rfl

/-- A cut tag with another byte behind it is not the start of a line. -/
theorem not_prefix_of_mixed {count : Nat} {byte : UInt8} {rest : List UInt8}
    (hcount : count < lineStart.length) (hbyte : lineStart[count]? ≠ some byte) :
    ¬ lineStart <+: lineStart.take count ++ byte :: rest ∧
      ¬ lineStart.take count ++ byte :: rest <+: lineStart := by
  have hsplit : lineStart.take count ++ lineStart[count] :: lineStart.drop (count + 1) =
      lineStart := by
    rw [← List.drop_eq_getElem_cons hcount, List.take_append_drop]
  rw [List.getElem?_eq_getElem hcount, ne_eq, Option.some.injEq] at hbyte
  constructor
  · intro hbegins
    have hbehind : lineStart.take count ++ lineStart[count] :: lineStart.drop (count + 1) <+:
        lineStart.take count ++ byte :: rest := by rwa [hsplit]
    rw [List.prefix_append_right_inj, List.cons_prefix_cons] at hbehind
    exact hbyte hbehind.1
  · intro hbegins
    have hbehind : lineStart.take count ++ byte :: rest <+:
        lineStart.take count ++ lineStart[count] :: lineStart.drop (count + 1) := by rwa [hsplit]
    rw [List.prefix_append_right_inj, List.cons_prefix_cons] at hbehind
    exact hbyte hbehind.1.symm

/-- The scan takes remains for torn writes unless a cut tag has more behind it. -/
theorem is_torn_write_iff {remains : Remains} {fragment : List UInt8} (h : remains.Of fragment) :
    isTornWrite fragment lineStart = true ↔ remains ≠ .mixed := by
  rw [isTornWrite]
  cases remains with
  | unfilled =>
      obtain ⟨zeros, rfl⟩ := h
      have hnil := drop_zeros zeros []
      rw [List.append_nil] at hnil
      simp [hnil]
  | cutInTag =>
      obtain ⟨zeros, count, hpos, _, rfl⟩ := h
      have hdrop := drop_zeros_tag hpos zeros []
      rw [List.append_nil] at hdrop
      simp [hdrop, List.take_prefix]
  | cutBehindTag =>
      obtain ⟨zeros, rest, rfl⟩ := h
      have hdrop := @drop_zeros_tag lineStart.length (by decide) zeros rest
      rw [List.take_length] at hdrop
      simp [hdrop]
  | mixed =>
      obtain ⟨zeros, count, byte, rest, hpos, hcount, hbyte, rfl⟩ := h
      obtain ⟨hline, htag⟩ := @not_prefix_of_mixed count byte rest hcount hbyte
      rw [drop_zeros_tag hpos]
      simp [hline, htag]

/-- A line starts with the tag. -/
theorem line_start_begins (read : SidecarRead) : lineStart <+: lineOf crates read := by
  rw [lineOf, encode_line_eq, List.append_assoc]
  exact List.prefix_append _ _

/-- What an interrupted write adds never continues a cut tag: the tag holds no zero byte, and its
first byte only in front. -/
theorem not_continued {count : Nat} (hcount : 0 < count) {zeros more : Nat}
    (hadded : ¬ (zeros = 0 ∧ more = 0)) {line : List UInt8} (hline : lineStart <+: line) :
    ∃ byte rest, List.replicate zeros 0 ++ line.take more = byte :: rest ∧
      lineStart[count]? ≠ some byte := by
  have htag : ∀ index, 0 < index → lineStart[index]? ≠ some 0 ∧ lineStart[index]? ≠ some 0x53 := by
    intro index hindex
    rw [line_start_eq]
    match index, hindex with
    | 1, _ | 2, _ | 3, _ | 4, _ => decide
    | index + 5, _ => simp
  cases zeros with
  | succ zeros => exact ⟨0, _, rfl, (htag count hcount).1⟩
  | zero =>
      cases more with
      | zero => exact absurd ⟨rfl, rfl⟩ hadded
      | succ more =>
          obtain ⟨rest, rfl⟩ := hline
          rw [line_start_eq]
          exact ⟨0x53, _, rfl, (htag count hcount).2⟩

/-- What is left stays described when zero bytes and the first bytes of a line are added. -/
theorem Remains.Of.add {remains : Remains} {fragment : List UInt8} (h : remains.Of fragment)
    (zeros count : Nat) {line : List UInt8} (hline : lineStart <+: line) :
    (remains.add zeros count).Of
      (fragment ++ (List.replicate zeros 0 ++ line.take count)) := by
  cases remains with
  | unfilled =>
      obtain ⟨before, rfl⟩ := h
      obtain ⟨rest, rfl⟩ := hline
      rw [← List.append_assoc, List.replicate_append_replicate, Remains.add]
      split_ifs with hzero hcut
      · exact ⟨before + zeros, by rw [hzero, List.take_zero, List.append_nil]⟩
      · exact ⟨before + zeros, count, Nat.pos_of_ne_zero hzero, hcut,
          by rw [List.take_append_of_le_length hcut.le]⟩
      · exact ⟨before + zeros, rest.take (count - lineStart.length),
          by rw [List.take_append, List.take_of_length_le (Nat.le_of_not_lt hcut)]⟩
  | cutInTag =>
      rw [Remains.add]
      split_ifs with hnothing
      · rwa [hnothing.1, hnothing.2, List.replicate_zero, List.take_zero, List.append_nil,
          List.append_nil]
      · obtain ⟨before, cut, hpos, hcut, rfl⟩ := h
        obtain ⟨byte, rest, hadded, hbyte⟩ := not_continued hpos hnothing hline
        exact ⟨before, cut, byte, rest, hpos, hcut, hbyte, by rw [hadded, List.append_assoc]⟩
  | cutBehindTag =>
      obtain ⟨before, rest, rfl⟩ := h
      exact ⟨before, _, by rw [List.append_assoc, List.append_assoc]⟩
  | mixed =>
      obtain ⟨before, cut, byte, rest, hpos, hcut, hbyte, rfl⟩ := h
      exact ⟨before, cut, byte, _, hpos, hcut, hbyte,
        by rw [List.append_assoc, List.append_assoc, List.cons_append]⟩

/-! ## Counting damage -/

/-- Whether a pass counts a complete line as damage. -/
def isDamaged (crates : Crates) (line : List UInt8) : Bool :=
  match readLine crates line with
  | .afterDamage _ _ | .corrupt => line ≠ []
  | .record _ | .afterTornWrite _ _ => false

/-- How many complete lines of a file a pass counts as damage. -/
def damage (crates : Crates) (file : List UInt8) : Nat :=
  (lines newline file).1.countP (isDamaged crates)

/-- The corrupt lines a pass reports are those it counts. -/
theorem scan_lines_corrupt_lines {σ : Type} {each : σ → SidecarRead → Except StorageError σ}
    {complete : List (List UInt8)} {position : Nat} {tally tally' : ScanTally} {state state' : σ}
    (h : scanLines crates each complete position tally state = .ok (state', tally')) :
    tally'.corruptLines = tally.corruptLines + complete.countP (isDamaged crates) := by
  induction complete generalizing position tally state with
  | nil =>
      cases h
      rfl
  | cons line rest ih =>
      rw [scanLines] at h
      by_cases hline : line = []
      · rw [if_pos hline] at h
        rw [List.countP_cons_of_neg (by simp [isDamaged, hline]; split <;> simp), ih h]
      · simp only [if_neg hline] at h
        cases hread : readLine crates line with
        | corrupt =>
            simp only [hread] at h
            rw [List.countP_cons_of_pos (by simp [isDamaged, hread, hline]), ih h]
            simp only [Nat.add_assoc, Nat.add_comm 1]
        | record found =>
            simp only [hread] at h
            cases hstate : each state found with
            | error error => rw [hstate] at h; cases h
            | ok next =>
                rw [hstate] at h
                rw [List.countP_cons_of_neg (by simp [isDamaged, hread]), ih h]
        | afterTornWrite found place =>
            simp only [hread] at h
            cases hstate : each state found with
            | error error => rw [hstate] at h; cases h
            | ok next =>
                rw [hstate] at h
                rw [List.countP_cons_of_neg (by simp [isDamaged, hread]), ih h]
        | afterDamage found place =>
            simp only [hread] at h
            cases hstate : each state found with
            | error error => rw [hstate] at h; cases h
            | ok next =>
                rw [hstate] at h
                rw [List.countP_cons_of_pos (by simp [isDamaged, hread, hline]), ih h]
                simp only [Nat.add_assoc, Nat.add_comm 1]

/-- What stands behind the last newline of a file. -/
def tail (file : List UInt8) : List UInt8 := (lines newline file).2

/-- Nothing is left in an empty file. -/
theorem of_tail_nil : Remains.unfilled.Of (tail []) := ⟨0, rfl⟩

/-- A text without a newline completes no line and stays behind the last newline. -/
theorem append_fragment {fragment : List UInt8} (h : newline ∉ fragment) (file : List UInt8) :
    damage crates (file ++ fragment) = damage crates file ∧
      tail (file ++ fragment) = tail file ++ fragment := by
  have hboth : newline ∉ (lines newline file).2 ++ fragment := by
    simp [(@separator_notMem_lines _ _ newline file).2, h]
  rw [damage, tail, lines_append, lines_of_notMem hboth, List.append_nil]
  exact ⟨rfl, rfl⟩

/-- A line found behind something stands behind a torn write or behind damage. -/
theorem read_line_of_found {line : List UInt8} {read : SidecarRead} {offset : Nat}
    (hwhole : parseLine crates line = none)
    (h : (readLine crates line).found = some (read, offset)) :
    readLine crates line =
      if isTornWrite (line.take offset) lineStart then .afterTornWrite read offset
      else .afterDamage read offset := by
  rw [readLine] at h ⊢
  simp only [hwhole] at h ⊢
  split at h
  · split_ifs at h with htorn <;> cases h
    · rw [if_pos htorn]
    · rw [if_neg htorn]
  · cases h

/-- The line of a storable read is counted as damage when what is in front of it does not look
like a torn write. -/
theorem is_damaged_glued {read : SidecarRead} (h : storable read.read = .ok ())
    (fragment : List UInt8) :
    isDamaged crates (fragment ++ lineOf crates read) = !isTornWrite fragment lineStart := by
  have hread := @into_read_record_of _ read.recordedAt h
  by_cases hfragment : fragment = []
  · subst hfragment
    rw [isDamaged, List.nil_append, lineOf, readLine, parse_line_encode_line, hread]
    rfl
  · have hwhole := @parse_line_fragment crates _ (recordOf read.read read.recordedAt) hfragment
    have hline : fragment ++ encodeLine crates (recordOf read.read read.recordedAt) ≠ [] :=
      List.append_ne_nil_of_left_ne_nil hfragment _
    rw [isDamaged, lineOf, read_line_of_found hwhole (found_glued fragment hread), List.take_left]
    cases isTornWrite fragment lineStart <;> simp [hline]

/-- The next complete line is counted by what stands in front of it, and leaves nothing. -/
theorem append_line {read : SidecarRead} (h : storable read.read = .ok ())
    (file rest : List UInt8) :
    damage crates (file ++ (lineOf crates read ++ newline :: rest)) =
        damage crates file + (if isTornWrite (tail file) lineStart then 0 else 1) +
          damage crates rest ∧
      tail (file ++ (lineOf crates read ++ newline :: rest)) = tail rest := by
  have hboth : newline ∉ (lines newline file).2 ++ lineOf crates read := by
    simp [(@separator_notMem_lines _ _ newline file).2, newline_notMem_encode_line, lineOf]
  have hlines : lines newline (file ++ (lineOf crates read ++ newline :: rest)) =
      ((lines newline file).1 ++ (tail file ++ lineOf crates read) :: (lines newline rest).1,
        tail rest) := by
    rw [lines_append, ← List.append_assoc, lines_cons_line hboth]
    rfl
  constructor
  · rw [damage, hlines, List.countP_append, List.countP_cons, is_damaged_glued h,
      ← damage, ← damage]
    cases isTornWrite (tail file) lineStart with
    | false =>
        show damage crates file + (damage crates rest + 1) =
          damage crates file + 1 + damage crates rest
        omega
    | true => rfl
  · rw [tail, hlines]

/-- Complete lines stay counted when the file grows. -/
theorem damage_le_append (file more : List UInt8) :
    damage crates file ≤ damage crates (file ++ more) := by
  rw [damage, damage, lines_append, List.countP_append]
  exact Nat.le_add_right _ _

/-! ## One write -/

/-- Zero bytes can be added first. -/
theorem Remains.add_add (remains : Remains) (zeros count : Nat) :
    (remains.add zeros 0).add 0 count = remains.add zeros count := by
  cases remains with
  | unfilled => rfl
  | cutInTag => by_cases hzeros : zeros = 0 <;> simp [Remains.add, hzeros]
  | cutBehindTag => rfl
  | mixed => rfl

@[simp]
theorem Remains.add_nothing (remains : Remains) : remains.add 0 0 = remains := by
  cases remains <;> rfl

/-- What the bytes of a batch do to a file that some remains stand at the end of: the reads of its
complete lines are verified, the first of these lines is counted as damage behind mixed remains,
and what is left of the next line stands at the end. -/
theorem append_part {remains : Remains} {file : List UInt8} (hremains : remains.Of (tail file))
    {reads : List SidecarRead} (h : ∀ read ∈ reads, storable read.read = .ok ()) (kept : Nat)
    {file' : List UInt8} (hfile : file' = file ++ (batchOf crates reads).take kept) :
    verified crates file' =
        verified crates file ++ (completeLines crates reads kept).1.map recovered ∧
      damage crates file' = damage crates file +
        (if (completeLines crates reads kept).1 ≠ [] ∧ remains = .mixed then 1 else 0) ∧
      ((if (completeLines crates reads kept).1 = [] then remains else .unfilled).add 0
        (completeLines crates reads kept).2).Of (tail file') := by
  induction reads generalizing file file' kept remains with
  | nil =>
      rw [hfile, batchOf, List.map_nil, unlines_nil, List.take_nil, List.append_nil]
      simpa [completeLines] using hremains
  | cons read reads ih =>
      have hbatch : batchOf crates (read :: reads) =
          lineOf crates read ++ newline :: batchOf crates reads := unlines_cons _ _ _
      rw [hbatch] at hfile
      rw [completeLines]
      by_cases hkept : kept ≤ (lineOf crates read).length
      · -- no line is completed
        have hfragment : newline ∉ (lineOf crates read).take kept := fun hmem =>
          newline_notMem_encode_line _ (List.mem_of_mem_take hmem)
        rw [List.take_append_of_le_length hkept] at hfile
        obtain ⟨hdamage, htail⟩ := @append_fragment crates _ hfragment file
        rw [if_pos hkept, hfile, verified_append_fragment hfragment, hdamage, htail]
        refine ⟨by simp, by simp, ?_⟩
        exact hremains.add 0 kept (line_start_begins read)
      · -- the first line is completed, and the others follow nothing
        obtain ⟨more, rfl⟩ := Nat.exists_eq_add_of_lt (Nat.lt_of_not_le hkept)
        have hread := h read List.mem_cons_self
        have hkept' : (lineOf crates read).length + more + 1 - (lineOf crates read).length - 1 =
            more := by omega
        obtain ⟨hverified, hdamage, htail⟩ := ih of_tail_nil
          (fun other hother => h other (List.mem_cons_of_mem _ hother)) more rfl
        rw [List.take_append, List.take_of_length_le (by omega), Nat.add_assoc,
          Nat.add_sub_cancel_left, List.take_succ_cons] at hfile
        obtain ⟨hdamage', htail'⟩ := @append_line crates _ hread file
          ((batchOf crates reads).take more)
        rw [List.nil_append] at hverified hdamage htail
        rw [if_neg hkept, hkept', hfile, verified_append_line hread, hverified, hdamage', hdamage,
          htail']
        refine ⟨by simp [verified, verifiedLines, lines], ?_, ?_⟩
        · have htorn := is_torn_write_iff hremains
          have hnone : damage crates [] = 0 := rfl
          by_cases hmixed : remains = .mixed
          · have hfalse : isTornWrite (tail file) lineStart = false := by
              simpa [hmixed] using htorn
            simp [hfalse, hmixed, hnone]
          · simp [htorn.mpr hmixed, hmixed, hnone]
        · simpa using htail

/-- A completed batch completes all of its lines. -/
theorem complete_lines_length (reads : List SidecarRead) :
    completeLines crates reads (batchOf crates reads).length = (reads, 0) := by
  induction reads with
  | nil => rfl
  | cons read reads ih =>
      have hbatch : batchOf crates (read :: reads) =
          lineOf crates read ++ newline :: batchOf crates reads := unlines_cons _ _ _
      have hlength : (batchOf crates (read :: reads)).length =
          (lineOf crates read).length + ((batchOf crates reads).length + 1) := by
        rw [hbatch, List.length_append, List.length_cons]
      rw [completeLines, hlength, if_neg (by omega), Nat.add_sub_cancel_left, Nat.add_sub_cancel,
        ih]

/-! ## Scans -/

/-- What a scan does with each read it is handed here: it keeps it. -/
def keep (reads : List SidecarRead) (read : SidecarRead) :
    Except StorageError (List SidecarRead) :=
  .ok (reads ++ [read])

theorem fold_keep (reads kept : List SidecarRead) :
    reads.foldlM keep kept = .ok (kept ++ reads) := by
  induction reads generalizing kept with
  | nil => rw [List.append_nil]; rfl
  | cons read reads ih =>
      rw [List.foldlM_cons]
      exact (ih (kept ++ [read])).trans (by rw [List.append_assoc, List.singleton_append])

/-- A scan of a whole file keeps what the file verifies and counts its damage. -/
theorem scan_keep (file : List UInt8) :
    ∃ tally, scanFrom crates file 0 keep [] = .ok (verified crates file, tally) ∧
      tally.corruptLines = damage crates file := by
  have hfst := @scan_from_fst crates _ keep file 0 []
  rw [List.drop_zero, fold_keep, List.nil_append] at hfst
  rw [scanFrom, List.drop_zero] at hfst ⊢
  cases hscan : scanLines crates keep (lines newline file).1 0 ScanTally.empty [] with
  | error error => rw [hscan] at hfst; cases hfst
  | ok result =>
      obtain ⟨reads, tally⟩ := result
      rw [hscan] at hfst
      have hreads : reads = verified crates file := Except.ok.inj hfst
      refine ⟨{ tally with tornTailBytes := (lines newline file).2.length }, ?_, ?_⟩
      · rw [← hreads]
        rfl
      · exact (scan_lines_corrupt_lines hscan).trans (Nat.zero_add _)

/-- What some writes do to a file that some remains stand at the end of. -/
theorem append_writes {remains : Remains} {file : List UInt8} (hremains : remains.Of (tail file))
    (writes : List (Write crates)) :
    verified crates (file ++ sidecarOf writes) =
        verified crates file ++ (completedReads writes).map recovered ∧
      (damage crates (file ++ sidecarOf writes) = damage crates file ↔
        TagsKept remains writes) := by
  induction writes generalizing remains file with
  | nil => simp [sidecarOf, completedReads, TagsKept]
  | cons write writes ih =>
      -- the zero bytes in front of the write belong to what was left before it
      have hzeros : newline ∉ List.replicate write.zeros (0 : UInt8) := fun hmem =>
        absurd (List.eq_of_mem_replicate hmem) (by decide)
      obtain ⟨hdamage, htail⟩ := @append_fragment crates _ hzeros file
      have hunfilled : (remains.add write.zeros 0).Of
          (tail (file ++ List.replicate write.zeros 0)) := by
        rw [htail]
        simpa using hremains.add write.zeros 0 List.prefix_rfl
      obtain ⟨hverified, hcount, hleft⟩ := append_part hunfilled write.batch.storable write.kept
        (show file ++ write.bytes = _ by rw [Write.bytes, List.append_assoc])
      obtain ⟨hreads, hkept⟩ := ih hleft
      have hfile : file ++ sidecarOf (write :: writes) =
          file ++ write.bytes ++ sidecarOf writes := by
        rw [sidecarOf, List.flatMap_cons, ← List.append_assoc]
        rfl
      have hle := @damage_le_append crates (file ++ write.bytes) (sidecarOf writes)
      rw [hfile]
      constructor
      · have hcompleted : completedReads (write :: writes) =
            write.lines.1 ++ completedReads writes := List.flatMap_cons
        rw [hreads, hverified, verified_append_fragment hzeros, hcompleted, List.map_append,
          List.append_assoc]
        rfl
      · rw [hdamage] at hcount
        rw [TagsKept, Write.lines]
        by_cases hnone : (completeLines crates write.batch.reads write.kept).1 = []
        · -- the write left part of one line
          rw [if_pos hnone, Remains.add_add] at hkept
          rw [if_neg (fun hsome => hsome.1 hnone), Nat.add_zero] at hcount
          rw [if_pos hnone, ← hkept, hcount]
        · rw [if_neg hnone] at hkept
          rw [if_neg hnone, ← hkept]
          by_cases hmixed : remains.add write.zeros 0 = .mixed
          · rw [if_pos ⟨hnone, hmixed⟩] at hcount
            exact iff_of_false (by omega) fun hand => hand.1 hmixed
          · rw [if_neg (fun hand => hmixed hand.2), Nat.add_zero] at hcount
            rw [hcount, and_iff_right hmixed]

/-- What a scan from the start gives for some writes when every one of them is accounted for: the
reads of the completed lines, in file order, as their lines hold them, and no damage. -/
def ScansClean {crates : Crates} (writes : List (Write crates)) : Prop :=
  ∃ tally, scanFrom crates (sidecarOf writes) 0 keep [] =
    .ok ((completedReads writes).map recovered, tally) ∧ tally.corruptLines = 0

/-- The reads are always those of the completed lines, so only damage can be miscounted. -/
theorem scans_clean_iff_damage (writes : List (Write crates)) :
    ScansClean writes ↔ damage crates (sidecarOf writes) = 0 := by
  have hreads := (append_writes of_tail_nil writes).1
  have hnone : verified crates [] = [] := rfl
  rw [List.nil_append, hnone, List.nil_append] at hreads
  obtain ⟨tally, hscan, htally⟩ := @scan_keep crates (sidecarOf writes)
  rw [ScansClean, ← hreads, hscan]
  constructor
  · intro hclean
    obtain ⟨tally', hresult, hzero⟩ := hclean
    cases hresult
    rw [← htally, hzero]
  · intro hdamage
    exact ⟨tally, rfl, by rw [htally, hdamage]⟩

/-- No damage is counted exactly when no line is completed behind mixed remains. -/
theorem damage_iff_tags_kept (writes : List (Write crates)) :
    damage crates (sidecarOf writes) = 0 ↔ TagsKept .unfilled writes := by
  have hdamage := (append_writes of_tail_nil writes).2
  rwa [List.nil_append] at hdamage

/-- A scan after completed and interrupted writes is clean exactly when every completed line
stands behind remains in which no cut tag has more behind it. -/
theorem scans_clean_after_power_cuts (crates : Crates) (writes : List (Write crates)) :
    ScansClean writes ↔ TagsKept .unfilled writes := by
  rw [scans_clean_iff_damage]
  exact damage_iff_tags_kept writes

/-! ## Two cuts inside a tag -/

/-- The batch of one storable read. -/
def oneRead (read : SidecarRead) (h : storable read.read = .ok ()) : Batch :=
  ⟨[read], fun other hother => by rwa [List.mem_singleton.mp hother]⟩

/-- One byte is a proper part of a batch of one read. -/
theorem one_lt_batch_of (crates : Crates) (read : SidecarRead) :
    1 < (batchOf crates [read]).length := by
  have hle := (@line_start_begins crates read).length_le
  have htag : lineStart.length = 5 := by decide
  rw [batchOf, List.map_singleton, unlines_cons, List.length_append, List.length_cons]
  omega

theorem storable_bare_read (id : RawReadId) : storable (bareRead id) = .ok () := rfl

/-- Two writes cut behind the first byte of the tag, and a completed one. -/
def twoCuts (crates : Crates) (read : SidecarRead) (h : storable read.read = .ok ()) :
    List (Write crates) :=
  [.interrupted 0 (oneRead read h) 1 (one_lt_batch_of crates read),
    .interrupted 0 (oneRead read h) 1 (one_lt_batch_of crates read),
    .completed (oneRead read h)]

/-- The second cut puts a byte between the first and the next line. -/
theorem not_tags_kept_two_cuts (crates : Crates) {read : SidecarRead}
    (h : storable read.read = .ok ()) : ¬ TagsKept .unfilled (twoCuts crates read h) := by
  have hle := (@line_start_begins crates read).length_le
  have htag : lineStart.length = 5 := by decide
  have hcut : completeLines crates [read] 1 = ([], 1) := by rw [completeLines, if_pos (by omega)]
  have hcompleted := @complete_lines_length crates [read]
  simp [twoCuts, TagsKept, Write.lines, Write.batch, Write.kept, Write.zeros, oneRead, hcut,
    hcompleted, Remains.add, htag]

/-- Two power cuts in a row, each behind the first byte of a tag, are counted as damage. -/
theorem not_scans_clean_two_cuts :
    ¬ ScansClean (twoCuts serde ⟨bareRead firstId, epoch⟩ (storable_bare_read firstId)) := by
  rw [scans_clean_iff_damage, damage_iff_tags_kept]
  exact not_tags_kept_two_cuts serde (storable_bare_read firstId)

end Splitforge.Storage
