import Splitforge.Storage.Sidecar
import Mathlib.Data.List.Infix

/-!
# What the sidecar's lines prove

A line this program writes is read back behind any fragment, so a file's verified reads only
grow, and each completed write adds its own reads and nothing else. Nothing here takes the
digest to be collision free: a candidate in front of a real line would have to be JSON with a
line of this file in the middle of it, which no JSON text is.
-/

namespace Splitforge.Storage

open Splitforge.Domain Splitforge.Library

variable {crates : Crates}

/-- The bytes of a digest. -/
def digestBytes (crates : Crates) (json : List UInt8) : List UInt8 :=
  Utf8.encode (digestOf crates json)

/-- The digest a line carries is 64 characters. -/
theorem length_digest_of (json : List UInt8) : (digestOf crates json).length = 64 := by
  rw [digestOf, hexLower, String.length_ofList, Hex.length_encode, crates.length_sha256]

@[simp]
theorem length_digest_bytes (json : List UInt8) : (digestBytes crates json).length = 64 := by
  rw [digestBytes, digestOf, hexLower, Hex.length_utf8_encode, crates.length_sha256]

theorem mem_digest_bytes {json : List UInt8} {byte : UInt8} (h : byte ∈ digestBytes crates json) :
    byte ∈ Hex.digitBytes :=
  Hex.mem_digit_bytes_of_mem_utf8_encode h

theorem line_start_eq : lineStart = [0x53, 0x46, 0x4a, 0x31, 0x20] := by decide

theorem space_notMem_digest_bytes (json : List UInt8) : space ∉ digestBytes crates json :=
  fun h => absurd (mem_digest_bytes h) (by decide)

theorem encode_line_eq (record : SidecarRecord) :
    encodeLine crates record =
      lineStart ++ digestBytes crates (crates.toJson record) ++ space :: crates.toJson record := rfl

/-- A line holds no newline before its own. -/
theorem newline_notMem_encode_line (record : SidecarRecord) :
    newline ∉ encodeLine crates record := by
  rw [encode_line_eq]
  simp only [List.mem_append, List.mem_cons, not_or]
  refine ⟨⟨by decide, fun h => absurd (mem_digest_bytes h) (by decide)⟩, by decide,
    crates.to_json_newline record⟩

theorem valid_encode_line (record : SidecarRecord) :
    Utf8.Valid (encodeLine crates record) := by
  have hstart : Utf8.Valid lineStart :=
    Utf8.valid_of_ascii (List.all_iff_forall_prop.mp (by decide))
  have hspace : Utf8.Valid [space] :=
    Utf8.valid_of_ascii (List.all_iff_forall_prop.mp (by decide))
  rw [encode_line_eq, ← List.singleton_append]
  exact (hstart.append (Utf8.valid_encode _)).append
    (hspace.append (crates.to_json_valid record))

/-- What parses as a line is its start, the digest of its JSON, a space and that JSON. -/
theorem parse_line_eq_some {line : List UInt8} {read : SidecarRead}
    (h : parseLine crates line = some read) :
    ∃ json record, line = lineStart ++ digestBytes crates json ++ space :: json ∧
      crates.fromJson json = some record ∧ record.intoRead = some read := by
  simp only [parseLine, Option.bind_eq_bind, Option.bind_eq_some_iff] at h
  obtain ⟨_, _, rest, hstrip, ⟨digest, json⟩, hsplit, _, hdigest, record, hjson, hread⟩ := h
  obtain ⟨rfl, _⟩ := eq_of_split_once hsplit
  have hdigest : digestBytes crates json = digest := by
    by_contra hne
    simp [guard, digestBytes] at hdigest hne
    exact hne hdigest
  refine ⟨json, record, ?_, hjson, hread⟩
  rw [Json.eq_of_strip hstrip, hdigest, List.append_assoc]

/-- A written line parses as its record. -/
theorem parse_line_encode_line (record : SidecarRecord) :
    parseLine crates (encodeLine crates record) = record.intoRead := by
  have hstrip : Json.strip lineStart (encodeLine crates record) =
      some (digestBytes crates (crates.toJson record) ++ space :: crates.toJson record) := by
    rw [encode_line_eq, List.append_assoc, Json.strip_append]
  have hsplit : splitOnce space
      (digestBytes crates (crates.toJson record) ++ space :: crates.toJson record) =
      some (digestBytes crates (crates.toJson record), crates.toJson record) :=
    split_once_append (space_notMem_digest_bytes _)
  rw [digestBytes] at hstrip hsplit
  simp [parseLine, guard, valid_encode_line, hstrip, hsplit, crates.from_json_to_json]

/-! ## Lines behind fragments -/

/-- Inside a string, a digest is more of the string. -/
theorem scan_digest_bytes (json : List UInt8) :
    Json.scan .text (digestBytes crates json) = some .text := by
  have hnext : ∀ byte ∈ Hex.digitBytes, Json.next .text byte = some .text :=
    List.all_iff_forall_prop.mp (by decide)
  have hall : ∀ byte ∈ digestBytes crates json, byte ∈ Hex.digitBytes := fun _ => mem_digest_bytes
  generalize digestBytes crates json = bytes at hall
  induction bytes with
  | nil => rfl
  | cons byte rest ih =>
      rw [Json.scan, hnext byte (hall byte List.mem_cons_self), Option.bind_some]
      exact ih fun other hother => hall other (List.mem_cons_of_mem _ hother)

/-- No JSON text goes on into a line of this file: outside a string the tag stops it, and inside
one the first quotation mark of the line's own JSON ends the string in front of a letter. -/
theorem scan_encode_line (place : Json.Place) (record : SidecarRecord) :
    Json.scan place (encodeLine crates record) = none := by
  obtain ⟨rest, hjson⟩ := crates.to_json_opening record
  have hopening : Json.scan .text (space :: Utf8.encode "\x7b\"id\":") = none := by decide
  rw [encode_line_eq, List.append_assoc, Json.scan_append]
  cases place with
  | outside => rfl
  | escape => rfl
  | text =>
      rw [show Json.scan .text lineStart = some .text by decide, Option.bind_some,
        Json.scan_append, scan_digest_bytes, Option.bind_some, hjson, ← List.cons_append,
        Json.scan_append, hopening, Option.bind_none]

/-- Nothing in front of a written line parses together with it. -/
theorem parse_line_fragment {fragment : List UInt8} (record : SidecarRecord)
    (h : fragment ≠ []) : parseLine crates (fragment ++ encodeLine crates record) = none := by
  by_contra hsome
  obtain ⟨read, hread⟩ := Option.ne_none_iff_exists'.mp hsome
  obtain ⟨json, other, hline, hjson, _⟩ := parse_line_eq_some hread
  -- the written line lies inside the JSON, or its tag lies inside the other line's head
  have hinside : ∃ front, json = front ++ encodeLine crates record := by
    rw [List.append_cons] at hline
    rcases List.append_eq_append_iff.mp hline with ⟨middle, hhead, hrest⟩ | ⟨front, _, hjson⟩
    · cases middle with
      | nil => exact ⟨[], hrest.symm⟩
      | cons byte middle =>
          have hbyte : byte = 0x53 := by
            rw [encode_line_eq, line_start_eq] at hrest
            exact (List.cons.inj hrest).1.symm
          obtain ⟨first, fragment, rfl⟩ := List.exists_cons_of_ne_nil h
          rw [line_start_eq] at hhead
          have htail : [0x46, 0x4a, 0x31, 0x20] ++ digestBytes crates json ++ [space] =
              fragment ++ byte :: middle := (List.cons.inj hhead).2
          have hmem : byte ∈ fragment ++ byte :: middle := by simp
          rw [← htail, hbyte] at hmem
          simp only [List.mem_append] at hmem
          have hdigest : (0x53 : UInt8) ∉ digestBytes crates json :=
            fun hmem => absurd (mem_digest_bytes hmem) (by decide)
          rcases hmem with (hmem | hmem) | hmem
          · exact absurd hmem (by decide)
          · exact absurd hmem hdigest
          · exact absurd hmem (by decide)
    · exact ⟨front, hjson⟩
  obtain ⟨front, rfl⟩ := hinside
  have hscan := crates.from_json_scan _ _ hjson
  rw [Json.scan_append] at hscan
  obtain ⟨place, _, hplace⟩ := Option.bind_eq_some_iff.mp hscan
  rw [scan_encode_line] at hplace
  cases hplace

/-- What a line turned out to hold, and where in it that starts. -/
def Line.found : Line → Option (SidecarRead × Nat)
  | .record read => some (read, 0)
  | .afterTornWrite read offset => some (read, offset)
  | .afterDamage read offset => some (read, offset)
  | .corrupt => none

/-- What is found in a line parses from where it is found. -/
theorem parse_line_of_found {line : List UInt8} {read : SidecarRead} {offset : Nat}
    (h : (readLine crates line).found = some (read, offset)) :
    parseLine crates (line.drop offset) = some read := by
  rw [readLine] at h
  cases hwhole : parseLine crates line with
  | some whole =>
      simp only [hwhole, Line.found, Option.some.injEq, Prod.mk.injEq] at h
      obtain ⟨rfl, rfl⟩ := h
      rwa [List.drop_zero]
  | none =>
      simp only [hwhole] at h
      split at h
      · rename_i place found hfound
        obtain ⟨place', _, hplace⟩ := List.exists_of_findSome?_eq_some hfound
        obtain ⟨read', hparse, heq⟩ := Option.map_eq_some_iff.mp hplace
        cases heq
        split_ifs at h <;> cases h <;> exact hparse
      · cases h

/-- A line's start is looked for in the fragment first, and next where the line is. -/
theorem starts_in_glued {fragment : List UInt8} (record : SidecarRecord) (h : fragment ≠ []) :
    ∃ front behind, startsIn (fragment ++ encodeLine crates record) =
      front ++ fragment.length :: behind ∧ ∀ offset ∈ front, offset < fragment.length := by
  have hfront := List.length_pos_of_ne_nil h
  have hstart : lineStart.isPrefixOf
      ((fragment ++ encodeLine crates record).drop fragment.length) = true := by
    rw [List.drop_left, encode_line_eq, List.append_assoc]
    exact List.isPrefixOf_iff_prefix.mpr (List.prefix_append _ _)
  have hback : 0 < (encodeLine crates record).length := by simp [encode_line_eq]
  have hrange : List.range' 1 ((fragment ++ encodeLine crates record).length - 1) =
      List.range' 1 (fragment.length - 1) ++ fragment.length ::
        List.range' (fragment.length + 1) ((encodeLine crates record).length - 1) := by
    have happend := @List.range'_append_1 1 (fragment.length - 1)
      ((encodeLine crates record).length - 1 + 1)
    rw [show 1 + (fragment.length - 1) = fragment.length by omega, List.range'_succ] at happend
    rw [happend, List.length_append]
    congr 1
    omega
  rw [startsIn, hrange, List.filter_append, List.filter_cons, if_pos hstart]
  refine ⟨_, _, rfl, fun offset hoffset => ?_⟩
  have hmem := List.mem_range'_1.mp (List.mem_of_mem_filter hoffset)
  omega

/-- A written line is found behind any fragment, where it starts. -/
theorem found_glued {record : SidecarRecord} {read : SidecarRead} (fragment : List UInt8)
    (h : record.intoRead = some read) :
    (readLine crates (fragment ++ encodeLine crates record)).found =
      some (read, fragment.length) := by
  have hparse : parseLine crates (encodeLine crates record) = some read := by
    rw [parse_line_encode_line, h]
  by_cases hfragment : fragment = []
  · rw [hfragment, List.nil_append, readLine, hparse]
    rfl
  obtain ⟨front, behind, hstarts, hfront⟩ :=
    @starts_in_glued crates _ record hfragment
  -- no place inside the fragment parses, so the first that does is the line's own
  have hnone : ∀ offset ∈ front,
      ((parseLine crates ((fragment ++ encodeLine crates record).drop offset)).map
        fun read => (offset, read)) = none := by
    intro offset hoffset
    have hlt := hfront offset hoffset
    have hrest : fragment.drop offset ≠ [] := by simpa using hlt
    rw [List.drop_append_of_le_length hlt.le, parse_line_fragment record hrest, Option.map_none]
  have hfound : (startsIn (fragment ++ encodeLine crates record)).findSome? (fun offset =>
      (parseLine crates ((fragment ++ encodeLine crates record).drop offset)).map
        fun read => (offset, read)) = some (fragment.length, read) := by
    rw [hstarts, List.findSome?_append, List.findSome?_eq_none_iff.mpr hnone, Option.none_or]
    simp [hparse]
  rw [readLine, parse_line_fragment record hfragment]
  simp only [hfound]
  split_ifs <;> rfl

/-- A line something is found in carries a digest there, of 64 characters. -/
theorem digest_at_of_found {line : List UInt8} {read : SidecarRead} {offset : Nat}
    (h : (readLine crates line).found = some (read, offset)) :
    ∃ digest, digestAt line offset = some digest ∧ digest.length = 64 := by
  obtain ⟨json, _, hline, _⟩ := parse_line_eq_some (parse_line_of_found h)
  have hlength := congrArg List.length hline
  have hoffset : line.drop (offset + lineTag.length + 1) =
      digestBytes crates json ++ space :: json := by
    rw [Nat.add_assoc, ← List.drop_drop, hline, List.append_assoc]
    rfl
  refine ⟨digestOf crates json, ?_, length_digest_of json⟩
  rw [digestAt, if_pos, hoffset, List.take_left' (length_digest_bytes json), digestBytes,
    Utf8.decode_encode]
  simp only [line_start_eq, List.length_drop, List.length_append, List.length_cons,
    length_digest_bytes, List.length_nil] at hlength
  change offset + 4 + 1 + 64 ≤ line.length
  omega

/-! ## The verified reads of a file -/

/-- The reads of the lines that verify. -/
def verifiedLines (crates : Crates) (complete : List (List UInt8)) : List SidecarRead :=
  complete.filterMap fun line => (readLine crates line).found.map Prod.fst

/-- Every read a pass over a file verifies, in file order. -/
def verified (crates : Crates) (file : List UInt8) : List SidecarRead :=
  verifiedLines crates (lines newline file).1

theorem verified_lines_append (first second : List (List UInt8)) :
    verifiedLines crates (first ++ second) =
      verifiedLines crates first ++ verifiedLines crates second :=
  List.filterMap_append

/-- An offset that is the start of the file or just past a newline in it. -/
structure EndsLine (file : List UInt8) (offset : Nat) : Prop where
  le_length : offset ≤ file.length
  no_tail : (lines newline (file.take offset)).2 = []

theorem ends_line_zero (file : List UInt8) : EndsLine file 0 := ⟨Nat.zero_le _, rfl⟩

/-- What is appended moves no line end. -/
theorem EndsLine.append {file : List UInt8} {offset : Nat} (h : EndsLine file offset)
    (more : List UInt8) : EndsLine (file ++ more) offset where
  le_length := by rw [List.length_append]; exact le_trans h.le_length (Nat.le_add_right _ _)
  no_tail := by rw [List.take_append_of_le_length h.le_length]; exact h.no_tail

/-- At the end of a complete line a file falls apart into two. -/
theorem EndsLine.verified_eq {file : List UInt8} {offset : Nat} (h : EndsLine file offset) :
    verified crates file =
      verified crates (file.take offset) ++ verified crates (file.drop offset) := by
  conv_lhs => rw [← List.take_append_drop offset file]
  rw [verified, lines_append, h.no_tail, List.nil_append, verified_lines_append]
  rfl

/-! ## Writing -/

/-- What a read comes back as from its line. -/
def recovered (read : SidecarRead) : SidecarRead :=
  ⟨asStored read.read, wholeMicros read.recordedAt⟩

/-- A verified read is storable, and comes back from its line as it is. -/
theorem of_mem_verified {file : List UInt8} {read : SidecarRead}
    (h : read ∈ verified crates file) : storable read.read = .ok () ∧ recovered read = read := by
  obtain ⟨line, _, hline⟩ := List.mem_filterMap.mp h
  obtain ⟨⟨found, offset⟩, hfound, rfl⟩ := Option.map_eq_some_iff.mp hline
  obtain ⟨_, _, _, _, hread⟩ := parse_line_eq_some (parse_line_of_found hfound)
  obtain ⟨hstorable, hstored, hwhole⟩ := into_read_eq_some hread
  exact ⟨hstorable, SidecarRead.ext hstored hwhole⟩

/-- The line of a read. -/
def lineOf (crates : Crates) (read : SidecarRead) : List UInt8 :=
  encodeLine crates (recordOf read.read read.recordedAt)

/-- The bytes of a batch. -/
def batchOf (crates : Crates) (reads : List SidecarRead) : List UInt8 :=
  unlines newline (reads.map (lineOf crates))

/-- The next complete line adds its read, whatever fragment it was appended onto. -/
theorem verified_append_line {read : SidecarRead} (h : storable read.read = .ok ())
    (file rest : List UInt8) :
    verified crates (file ++ (lineOf crates read ++ newline :: rest)) =
      verified crates file ++ recovered read :: verified crates rest := by
  have htail := (@separator_notMem_lines _ _ newline file).2
  have hline : newline ∉ lineOf crates read := newline_notMem_encode_line _
  have hfound := @found_glued crates _ _ (lines newline file).2
    (@into_read_record_of _ read.recordedAt h)
  have hboth : newline ∉ (lines newline file).2 ++ lineOf crates read := by
    simp [htail, hline]
  rw [verified, lines_append, ← List.append_assoc, lines_cons_line hboth, verified_lines_append]
  congr 1
  rw [verifiedLines, List.filterMap_cons, lineOf, hfound]
  rfl

/-- A completed write adds its reads, in order. -/
theorem verified_append_batch {reads : List SidecarRead}
    (h : ∀ read ∈ reads, storable read.read = .ok ()) (file : List UInt8) :
    verified crates (file ++ batchOf crates reads) =
      verified crates file ++ reads.map recovered := by
  induction reads generalizing file with
  | nil => simp [batchOf]
  | cons read reads ih =>
      have hrest := ih (fun other hother => h other (List.mem_cons_of_mem _ hother)) []
      rw [List.nil_append] at hrest
      rw [batchOf, List.map_cons, unlines_cons, verified_append_line (h read List.mem_cons_self),
        ← batchOf, hrest, List.map_cons]
      rfl

/-- A text without a newline completes nothing. -/
theorem verified_append_fragment {fragment : List UInt8} (h : newline ∉ fragment)
    (file : List UInt8) : verified crates (file ++ fragment) = verified crates file := by
  have hboth : newline ∉ (lines newline file).2 ++ fragment := by
    simp [(@separator_notMem_lines _ _ newline file).2, h]
  rw [verified, lines_append, lines_of_notMem hboth, List.append_nil, verified]

/-- An interrupted write adds the first of its reads. -/
theorem verified_append_part {reads : List SidecarRead}
    (h : ∀ read ∈ reads, storable read.read = .ok ()) (file : List UInt8) (kept : Nat) :
    ∃ count, verified crates (file ++ (batchOf crates reads).take kept) =
      verified crates file ++ (reads.take count).map recovered := by
  induction reads generalizing file kept with
  | nil => exact ⟨0, by simp [batchOf]⟩
  | cons read reads ih =>
      have hbatch : batchOf crates (read :: reads) =
          lineOf crates read ++ newline :: batchOf crates reads := unlines_cons _ _ _
      rw [hbatch]
      by_cases hkept : kept ≤ (lineOf crates read).length
      · refine ⟨0, ?_⟩
        have hfragment : newline ∉ (lineOf crates read).take kept := fun hmem =>
          newline_notMem_encode_line _ (List.mem_of_mem_take hmem)
        rw [List.take_append_of_le_length hkept, verified_append_fragment hfragment,
          List.take_zero, List.map_nil, List.append_nil]
      · obtain ⟨count, hcount⟩ := ih (fun other hother => h other (List.mem_cons_of_mem _ hother))
          [] (kept - (lineOf crates read).length - 1)
        refine ⟨count + 1, ?_⟩
        obtain ⟨more, hmore⟩ := Nat.exists_eq_add_of_lt (Nat.lt_of_not_le hkept)
        rw [hmore] at hcount ⊢
        rw [List.take_append, List.take_of_length_le (by omega),
          show (lineOf crates read).length + more + 1 - (lineOf crates read).length = more + 1 by
            omega, List.take_succ_cons, verified_append_line (h read List.mem_cons_self)]
        rw [show (lineOf crates read).length + more + 1 - (lineOf crates read).length - 1 = more by
          omega, List.nil_append] at hcount
        rw [hcount, List.take_succ_cons, List.map_cons]
        rfl

/-- A completed write ends a line. -/
theorem ends_line_append_batch {reads : List SidecarRead} (h : reads ≠ []) (file : List UInt8) :
    EndsLine (file ++ batchOf crates reads) (file ++ batchOf crates reads).length where
  le_length := le_rfl
  no_tail := by
    obtain ⟨read, reads, rfl⟩ := List.exists_cons_of_ne_nil h
    have htail := (@separator_notMem_lines _ _ newline file).2
    have hline : newline ∉ lineOf crates read := newline_notMem_encode_line _
    have hlines : ∀ line ∈ reads.map (lineOf crates), newline ∉ line := by
      intro line hline
      obtain ⟨read, _, rfl⟩ := List.mem_map.mp hline
      exact newline_notMem_encode_line _
    have hboth : newline ∉ (lines newline file).2 ++ lineOf crates read := by
      simp [htail, hline]
    rw [List.take_length, lines_append, batchOf, List.map_cons, unlines_cons, ← List.append_assoc,
      lines_cons_line hboth, lines_unlines hlines]

end Splitforge.Storage
