import Splitforge.Storage.SidecarLines

/-!
# Passes over the sidecar

`scan_from` hands over exactly the verified reads behind its offset, in file order, and the last
verified line it reports has every verified read before its end. An append either completes its
batch, or leaves some of its bytes behind and the handle as it was.
-/

namespace Splitforge.Storage

open Splitforge.Domain Splitforge.Library

variable {crates : Crates} {σ : Type} {each : σ → SidecarRead → Except StorageError σ}

/-- A line that verifies hands its read over and becomes the last verified one. -/
theorem scan_lines_cons_of_found {line : List UInt8} {read : SidecarRead} {offset : Nat}
    (h : (readLine crates line).found = some (read, offset)) (rest : List (List UInt8))
    (position : Nat) (tally : ScanTally) (state : σ) :
    ∃ tally' digest, tally'.lastVerified = some ⟨position + line.length + 1, digest⟩ ∧
      digest.length = 64 ∧
      scanLines crates each (line :: rest) position tally state =
        (each state read).bind fun state =>
          scanLines crates each rest (position + line.length + 1) tally' state := by
  obtain ⟨digest, hdigest, hlength⟩ := digest_at_of_found h
  have hline : line ≠ [] := by rintro rfl; cases h
  rw [scanLines]
  simp only [if_neg hline]
  cases hread : readLine crates line with
  | corrupt => rw [hread] at h; cases h
  | record found =>
      rw [hread] at h
      cases h
      exact ⟨_, digest, by simp only [hdigest], hlength, rfl⟩
  | afterTornWrite found place =>
      rw [hread] at h
      cases h
      exact ⟨_, digest, by simp only [hdigest], hlength, rfl⟩
  | afterDamage found place =>
      rw [hread] at h
      cases h
      exact ⟨_, digest, by simp only [hdigest], hlength, rfl⟩

/-- A line that does not verify hands nothing over. -/
theorem scan_lines_cons_of_corrupt {line : List UInt8} (h : (readLine crates line).found = none)
    (rest : List (List UInt8)) (position : Nat) (tally : ScanTally) (state : σ) :
    ∃ tally', tally'.lastVerified = tally.lastVerified ∧
      scanLines crates each (line :: rest) position tally state =
        scanLines crates each rest (position + line.length + 1) tally' state := by
  rw [scanLines]
  by_cases hline : line = []
  · exact ⟨tally, rfl, if_pos hline⟩
  · simp only [if_neg hline]
    cases hread : readLine crates line with
    | corrupt => exact ⟨{ tally with corruptLines := tally.corruptLines + 1 }, rfl, rfl⟩
    | _ => rw [hread] at h; cases h

/-- The loop hands over the verified reads in order and stops at the first error. -/
theorem scan_lines_fst (complete : List (List UInt8)) (position : Nat) (tally : ScanTally)
    (state : σ) :
    (scanLines crates each complete position tally state).map Prod.fst =
      (verifiedLines crates complete).foldlM each state := by
  induction complete generalizing position tally state with
  | nil => rfl
  | cons line rest ih =>
      rw [verifiedLines, List.filterMap_cons]
      cases hfound : (readLine crates line).found with
      | none =>
          obtain ⟨tally', _, hscan⟩ :=
            @scan_lines_cons_of_corrupt _ _ each _ hfound rest position tally state
          rw [hscan, ih]
          rfl
      | some found =>
          obtain ⟨tally', _, _, _, hscan⟩ :=
            @scan_lines_cons_of_found _ _ each _ _ _ hfound rest position tally state
          rw [hscan]
          change _ = (found.1 :: verifiedLines crates rest).foldlM each state
          rw [List.foldlM_cons]
          cases hstate : each state found.1 with
          | error error => rfl
          | ok state' => exact ih _ _ _

/-- The last verified line ends behind some of the lines, and none of the others verifies. -/
theorem scan_lines_last_verified {complete : List (List UInt8)} {position : Nat}
    {tally tally' : ScanTally} {state state' : σ}
    (h : scanLines crates each complete position tally state = .ok (state', tally')) :
    (tally'.lastVerified = tally.lastVerified ∧ verifiedLines crates complete = []) ∨
      ∃ count digest, tally'.lastVerified =
          some ⟨position + (unlines newline (complete.take count)).length, digest⟩ ∧
        verifiedLines crates (complete.drop count) = [] := by
  induction complete generalizing position tally state with
  | nil =>
      cases h
      exact Or.inl ⟨rfl, rfl⟩
  | cons line rest ih =>
      have hlength (count : Nat) : position + line.length + 1 +
          (unlines newline (rest.take count)).length =
          position + (unlines newline ((line :: rest).take (count + 1))).length := by
        simp only [List.take_succ_cons, unlines_cons, List.length_append, List.length_cons]
        omega
      cases hfound : (readLine crates line).found with
      | none =>
          obtain ⟨middle, hmiddle, hscan⟩ :=
            @scan_lines_cons_of_corrupt _ _ each _ hfound rest position tally state
          rw [hscan] at h
          rcases ih h with ⟨hlast, hrest⟩ | ⟨count, digest, hlast, hrest⟩
          · refine Or.inl ⟨hlast.trans hmiddle, ?_⟩
            rw [verifiedLines, List.filterMap_cons, hfound]
            exact hrest
          · exact Or.inr ⟨count + 1, digest, by rw [hlast, hlength], hrest⟩
      | some found =>
          obtain ⟨middle, digest, hmiddle, _, hscan⟩ :=
            @scan_lines_cons_of_found _ _ each _ _ _ hfound rest position tally state
          rw [hscan] at h
          cases hstate : each state found.1 with
          | error error => rw [hstate] at h; cases h
          | ok state'' =>
              rw [hstate] at h
              rcases ih h with ⟨hlast, hrest⟩ | ⟨count, digest', hlast, hrest⟩
              · refine Or.inr ⟨1, digest, ?_, hrest⟩
                rw [hlast, hmiddle, ← hlength 0]
                rfl
              · exact Or.inr ⟨count + 1, digest', by rw [hlast, hlength], hrest⟩

/-- A last verified line has an end and a whole digest. -/
theorem scan_lines_tip {complete : List (List UInt8)} {position : Nat} {tally tally' : ScanTally}
    {state state' : σ} (h : scanLines crates each complete position tally state =
      .ok (state', tally')) {tip : Tip} (htip : tally'.lastVerified = some tip) :
    tally.lastVerified = some tip ∨ (tip.lineEnd ≠ 0 ∧ tip.digest.length = 64) := by
  induction complete generalizing position tally state with
  | nil =>
      cases h
      exact Or.inl htip
  | cons line rest ih =>
      cases hfound : (readLine crates line).found with
      | none =>
          obtain ⟨middle, hmiddle, hscan⟩ :=
            @scan_lines_cons_of_corrupt _ _ each _ hfound rest position tally state
          rw [hscan] at h
          rw [← hmiddle]
          exact ih h
      | some found =>
          obtain ⟨middle, digest, hmiddle, hlength, hscan⟩ :=
            @scan_lines_cons_of_found _ _ each _ _ _ hfound rest position tally state
          rw [hscan] at h
          cases hstate : each state found.1 with
          | error error => rw [hstate] at h; cases h
          | ok next =>
              rw [hstate] at h
              rcases ih h with hlast | hlast
              · rw [hmiddle] at hlast
                cases hlast
                exact Or.inr ⟨Nat.succ_ne_zero _, hlength⟩
              · exact Or.inr hlast

/-- What the loop counts does not depend on what is done with the reads. -/
theorem scan_lines_tally {τ : Type} {each' : τ → SidecarRead → Except StorageError τ}
    {complete : List (List UInt8)} {position : Nat} {tally first second : ScanTally}
    {start state : σ} {start' state' : τ}
    (h : scanLines crates each complete position tally start = .ok (state, first))
    (h' : scanLines crates each' complete position tally start' = .ok (state', second)) :
    first = second := by
  induction complete generalizing position tally start start' with
  | nil =>
      cases h
      cases h'
      rfl
  | cons line rest ih =>
      rw [scanLines] at h h'
      by_cases hline : line = []
      · rw [if_pos hline] at h h'
        exact ih h h'
      · simp only [if_neg hline] at h h'
        cases hread : readLine crates line with
        | corrupt =>
            simp only [hread] at h h'
            exact ih h h'
        | _ read =>
            simp only [hread] at h h'
            cases hstate : each start read with
            | error error => rw [hstate] at h; cases h
            | ok next =>
                cases hstate' : each' start' read with
                | error error => rw [hstate'] at h'; cases h'
                | ok next' =>
                    rw [hstate] at h
                    rw [hstate'] at h'
                    exact ih h h'

/-- A pass hands over the verified reads behind its offset. -/
theorem scan_from_fst (file : List UInt8) (offset : Nat) (state : σ) :
    (scanFrom crates file offset each state).map Prod.fst =
      (verified crates (file.drop offset)).foldlM each state := by
  rw [verified, ← scan_lines_fst _ offset ScanTally.empty, scanFrom]
  cases scanLines crates each (lines newline (file.drop offset)).1 offset ScanTally.empty state <;>
    rfl

/-- The last verified line a pass reports has an end and a whole digest. -/
theorem scan_from_tip {file : List UInt8} {offset : Nat} {state state' : σ} {tally : ScanTally}
    (h : scanFrom crates file offset each state = .ok (state', tally)) {tip : Tip}
    (htip : tally.lastVerified = some tip) : tip.lineEnd ≠ 0 ∧ tip.digest.length = 64 := by
  rw [scanFrom] at h
  cases hscan : scanLines crates each (lines newline (file.drop offset)).1 offset
      ScanTally.empty state with
  | error error => rw [hscan] at h; cases h
  | ok result =>
      rw [hscan] at h
      cases h
      exact (scan_lines_tip hscan htip).resolve_left fun hnone => by cases hnone

/-- Two passes over the same lines report the same. -/
theorem scan_from_tally {τ : Type} {each' : τ → SidecarRead → Except StorageError τ}
    {file : List UInt8} {offset : Nat} {first second : ScanTally} {start state : σ}
    {start' state' : τ} (h : scanFrom crates file offset each start = .ok (state, first))
    (h' : scanFrom crates file offset each' start' = .ok (state', second)) : first = second := by
  rw [scanFrom] at h h'
  cases hscan : scanLines crates each (lines newline (file.drop offset)).1 offset
      ScanTally.empty start with
  | error error => rw [hscan] at h; cases h
  | ok result =>
      cases hscan' : scanLines crates each' (lines newline (file.drop offset)).1 offset
          ScanTally.empty start' with
      | error error => rw [hscan'] at h'; cases h'
      | ok result' =>
          rw [hscan] at h
          rw [hscan'] at h'
          cases h
          cases h'
          rw [scan_lines_tally hscan hscan']

/-- Where a pass that started at a line's end can leave a checkpoint: behind every verified read
of the file, at a line's end. -/
theorem scan_from_last_verified {file : List UInt8} {offset : Nat} {state state' : σ}
    {tally : ScanTally} (hoffset : EndsLine file offset)
    (h : scanFrom crates file offset each state = .ok (state', tally)) :
    match tally.lastVerified with
    | none => verified crates (file.drop offset) = []
    | some tip => EndsLine file tip.lineEnd ∧
        verified crates (file.take tip.lineEnd) = verified crates file := by
  rw [scanFrom] at h
  cases hscan : scanLines crates each (lines newline (file.drop offset)).1 offset
      ScanTally.empty state with
  | error error => rw [hscan] at h; cases h
  | ok result =>
      rw [hscan] at h
      cases h
      generalize hcomplete : (lines newline (file.drop offset)).1 = complete at hscan
      rcases scan_lines_last_verified hscan with ⟨hlast, hnone⟩ | ⟨count, digest, hlast, hnone⟩
      · simp only [hlast, ScanTally.empty, verified, hcomplete, hnone]
      simp only [hlast]
      -- the bytes up to the reported end are those before the offset and the lines read since
      have hsplit : file = file.take offset ++ (unlines newline (complete.take count) ++
          (unlines newline (complete.drop count) ++ (lines newline (file.drop offset)).2)) := by
        rw [← List.append_assoc (unlines _ _), ← unlines_append, List.take_append_drop,
          ← hcomplete, unlines_lines, List.take_append_drop]
      have htake : file.take (offset + (unlines newline (complete.take count)).length) =
          file.take offset ++ unlines newline (complete.take count) := by
        have hlength : offset + (unlines newline (complete.take count)).length =
            (file.take offset ++ unlines newline (complete.take count)).length := by
          rw [List.length_append, List.length_take, min_eq_left hoffset.le_length]
        rw [hlength]
        nth_rewrite 2 [hsplit]
        rw [← List.append_assoc, List.take_left]
      have hlines : lines newline (unlines newline (complete.take count)) =
          (complete.take count, []) :=
        lines_unlines fun line hline => by
          rw [← hcomplete] at hline
          exact (separator_notMem_lines _).1 line (List.mem_of_mem_take hline)
      -- no line behind that end verifies
      refine ⟨⟨?_, ?_⟩, ?_⟩
      · have hlength := congrArg List.length hsplit
        simp only [List.length_append, List.length_take, min_eq_left hoffset.le_length] at hlength
        omega
      · rw [htake, lines_append, hoffset.no_tail, List.nil_append, hlines]
      · rw [hoffset.verified_eq, htake, verified, lines_append, hoffset.no_tail, List.nil_append,
          hlines, verified_lines_append, verified, verified, hcomplete]
        conv_rhs => rw [← List.take_append_drop count complete, verified_lines_append, hnone]
        rw [List.append_nil]

/-- Every read has a record. -/
theorem map_m_of_eq (reads : List SidecarRead) :
    (reads.mapM fun read => SidecarRecord.of read.read read.recordedAt) =
      Except.ok (reads.map fun read => recordOf read.read read.recordedAt) := by
  induction reads with
  | nil => rfl
  | cons read reads ih => rw [List.mapM_cons, sidecar_record_of_eq, ih]; rfl

/-- What an append can do: nothing for an empty batch, fail with some of the batch in the file
and the handle as it was, or write the batch and move the handle to its end. -/
theorem append_records_cases {fault : Option SidecarFault} {sidecar sidecar' : Sidecar}
    {file file' : List UInt8} {reads : List SidecarRead} {outcome : Except StorageError Unit}
    (h : sidecar.appendRecords crates fault file reads = (outcome, sidecar', file')) :
    (reads = [] ∧ outcome = .ok () ∧ sidecar' = sidecar ∧ file' = file) ∨
      (∃ error kept, outcome = .error error ∧ sidecar' = sidecar ∧
        file' = file ++ (batchOf crates reads).take kept) ∨
      (reads ≠ [] ∧ fault = none ∧ outcome = .ok () ∧ file' = file ++ batchOf crates reads ∧
        ∃ digest, sidecar' = { sidecar with tip := some ⟨file'.length, digest⟩ }) := by
  have hbuffer : unlines newline ((reads.map fun read =>
      recordOf read.read read.recordedAt).map (encodeLine crates)) = batchOf crates reads := by
    rw [List.map_map]
    rfl
  rw [Sidecar.appendRecords, map_m_of_eq] at h
  simp only [hbuffer] at h
  cases hlast : (reads.map fun read => recordOf read.read read.recordedAt).getLast? with
  | none =>
      simp only [hlast] at h
      cases h
      exact Or.inl ⟨by simpa using hlast, rfl, rfl, rfl⟩
  | some last =>
      simp only [hlast] at h
      have hreads : reads ≠ [] := by rintro rfl; cases hlast
      have hwhole : file ++ batchOf crates reads =
          file ++ (batchOf crates reads).take (batchOf crates reads).length := by
        rw [List.take_length]
      cases fault with
      | none =>
          cases h
          exact Or.inr (Or.inr ⟨hreads, rfl, rfl, rfl, _, rfl⟩)
      | some fault =>
          cases fault with
          | write kept error =>
              cases h
              exact Or.inr (Or.inl ⟨_, kept, rfl, rfl, rfl⟩)
          | sync error =>
              cases h
              exact Or.inr (Or.inl ⟨_, _, rfl, rfl, hwhole⟩)
          | position error =>
              cases h
              exact Or.inr (Or.inl ⟨_, _, rfl, rfl, hwhole⟩)

end Splitforge.Storage
