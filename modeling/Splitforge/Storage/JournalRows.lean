import Splitforge.Storage.Journal
import Splitforge.Storage.SidecarScan

/-!
# What the journal's operations do to its rows

`Inserted` says that a table grew by some reads, each with a fresh id and the next sequence
number. It is the one thing a transaction of the writer does to `raw_reads`, in an append and in
a replay, and every fact about the table is derived from it.
-/

namespace Splitforge.Storage

open Splitforge.Domain Splitforge.Library

variable {crates : Crates}

/-- The row a read becomes behind some rows. -/
def rowOf (crates : Crates) (rawReads : List StoredRawRead) (read : SidecarRead) :
    StoredRawRead where
  seq := maxSeq rawReads + 1
  recordedAt := wholeMicros read.recordedAt
  payloadSha256 := hexLower (crates.sha256 read.read.rawPayload)
  read := asStored read.read

/-- A table grew by some reads, in order, none of whose ids it held. -/
inductive Inserted (crates : Crates) :
    List StoredRawRead → List SidecarRead → List StoredRawRead → Prop where
  | nil (rawReads : List StoredRawRead) : Inserted crates rawReads [] rawReads
  | cons {rawReads rawReads' : List StoredRawRead} {read : SidecarRead} {reads : List SidecarRead}
      (hfresh : read.read.id ∉ storedIds rawReads)
      (hrest : Inserted crates (rawReads ++ [rowOf crates rawReads read]) reads rawReads') :
      Inserted crates rawReads (read :: reads) rawReads'

/-- A table of the writer: ids are unique, and sequence numbers increase. -/
structure WellFormed (rawReads : List StoredRawRead) : Prop where
  ids_nodup : (storedIds rawReads).Nodup
  seqs_increase : rawReads.Pairwise fun first second => first.seq < second.seq

theorem well_formed_nil : WellFormed [] := ⟨List.nodup_nil, List.Pairwise.nil⟩

/-- No row is above the highest sequence number. -/
theorem seq_le_max_seq {rawReads : List StoredRawRead} {row : StoredRawRead}
    (h : row ∈ rawReads) : row.seq ≤ maxSeq rawReads := by
  induction rawReads with
  | nil => cases h
  | cons other rawReads ih =>
      rw [maxSeq, List.foldr_cons]
      rcases List.mem_cons.mp h with rfl | h
      · exact le_max_left _ _
      · exact le_trans (ih h) (le_max_right _ _)

@[simp]
theorem stored_ids_append (first second : List StoredRawRead) :
    storedIds (first ++ second) = storedIds first ++ storedIds second :=
  List.map_append

@[simp]
theorem stored_ids_row_of (rawReads : List StoredRawRead) (read : SidecarRead) :
    storedIds [rowOf crates rawReads read] = [read.read.id] := rfl

theorem max_seq_append_row (rawReads : List StoredRawRead) (read : SidecarRead) :
    maxSeq (rawReads ++ [rowOf crates rawReads read]) = maxSeq rawReads + 1 := by
  have hall (rows : List StoredRawRead) (row : StoredRawRead) :
      maxSeq (rows ++ [row]) = max (maxSeq rows) row.seq := by
    induction rows with
    | nil => simp [maxSeq]
    | cons other rows ih => simp only [maxSeq, List.cons_append, List.foldr_cons] at ih ⊢; omega
  rw [hall, rowOf, max_eq_right (Nat.le_succ _)]

/-- One more row keeps a table well formed. -/
theorem WellFormed.append_row {rawReads : List StoredRawRead} {read : SidecarRead}
    (h : WellFormed rawReads) (hfresh : read.read.id ∉ storedIds rawReads) :
    WellFormed (rawReads ++ [rowOf crates rawReads read]) where
  ids_nodup := by
    rw [stored_ids_append, stored_ids_row_of]
    exact h.ids_nodup.append (List.nodup_singleton _) (by simpa using hfresh)
  seqs_increase := by
    rw [List.pairwise_append]
    refine ⟨h.seqs_increase, List.pairwise_singleton _ _, fun row hrow other hother => ?_⟩
    rw [List.mem_singleton.mp hother]
    exact Nat.lt_succ_of_le (seq_le_max_seq hrow)

namespace Inserted

variable {rawReads rawReads' : List StoredRawRead} {reads : List SidecarRead}

theorem well_formed (h : Inserted crates rawReads reads rawReads') (hrows : WellFormed rawReads) :
    WellFormed rawReads' := by
  induction h with
  | nil => exact hrows
  | cons hfresh _ ih => exact ih (hrows.append_row hfresh)

/-- The new rows follow the old ones and hold the reads, in order, with higher sequence
numbers. -/
theorem exists_rows (h : Inserted crates rawReads reads rawReads') :
    ∃ rows, rawReads' = rawReads ++ rows ∧
      rows.map (fun row => (⟨row.read, row.recordedAt⟩ : SidecarRead)) = reads.map recovered ∧
      ∀ row ∈ rows, maxSeq rawReads < row.seq := by
  induction h with
  | nil => exact ⟨[], by simp⟩
  | @cons rawReads rawReads' read reads hfresh _ ih =>
      obtain ⟨rows, rfl, hrows, hseq⟩ := ih
      refine ⟨rowOf crates rawReads read :: rows, by simp, ?_, fun row hrow => ?_⟩
      · rw [List.map_cons, List.map_cons, hrows]
        rfl
      · rcases List.mem_cons.mp hrow with rfl | hrow
        · exact Nat.lt_succ_self _
        · have hlt := hseq row hrow
          rw [max_seq_append_row] at hlt
          omega

/-- The table holds the ids it held and those of the reads. -/
theorem stored_ids_eq (h : Inserted crates rawReads reads rawReads') :
    storedIds rawReads' = storedIds rawReads ++ reads.map fun read => read.read.id := by
  obtain ⟨rows, rfl, hrows, _⟩ := h.exists_rows
  have hids := congrArg (List.map fun read : SidecarRead => read.read.id) hrows
  rw [List.map_map, List.map_map] at hids
  rw [stored_ids_append]
  exact congrArg (storedIds rawReads ++ ·) hids

/-- Each row is an old one or holds one of the reads. -/
theorem mem_or (h : Inserted crates rawReads reads rawReads') {row : StoredRawRead}
    (hrow : row ∈ rawReads') :
    row ∈ rawReads ∨
      (maxSeq rawReads < row.seq ∧
        ∃ read ∈ reads, (⟨row.read, row.recordedAt⟩ : SidecarRead) = recovered read) := by
  obtain ⟨rows, rfl, hrows, hseq⟩ := h.exists_rows
  rcases List.mem_append.mp hrow with hrow | hrow
  · exact Or.inl hrow
  · have hmem := List.mem_map_of_mem (f := fun row : StoredRawRead =>
      (⟨row.read, row.recordedAt⟩ : SidecarRead)) hrow
    rw [hrows] at hmem
    obtain ⟨read, hread, heq⟩ := List.mem_map.mp hmem
    exact Or.inr ⟨hseq row hrow, read, hread, heq.symm⟩

/-- One more read can follow. -/
theorem snoc {read : SidecarRead} (h : Inserted crates rawReads reads rawReads')
    (hfresh : read.read.id ∉ storedIds rawReads') :
    Inserted crates rawReads (reads ++ [read]) (rawReads' ++ [rowOf crates rawReads' read]) := by
  induction h with
  | nil => exact .cons hfresh (.nil _)
  | cons hfirst _ ih => exact .cons hfirst (ih hfresh)

end Inserted

/-! ## Transactions -/

theorem u64_to_i64_of_fits {value : UInt64} (h : fitsI64 value = true) (field : String) :
    ∃ stored, u64ToI64 value field = .ok stored := by
  obtain ⟨stored, hstored⟩ := Option.isSome_iff_exists.mp h
  exact ⟨stored, by rw [u64ToI64, hstored]⟩

/-- An absent value fits, and a value that fits converts. -/
theorem map_m_u64_to_i64 {value : Option UInt64} (h : value.all fitsI64 = true)
    (field : String) : ∃ stored, (value.mapM fun value => u64ToI64 value field) = .ok stored := by
  cases value with
  | none => exact ⟨none, rfl⟩
  | some value =>
      obtain ⟨stored, hstored⟩ := u64_to_i64_of_fits h field
      exact ⟨some stored, by simp [hstored]⟩

/-- Inserting a storable read fails only when its id is taken. -/
theorem insert_one_of_storable {read : RawRead} (h : storable read = .ok ())
    (rawReads : List StoredRawRead) (recordedAt : OffsetDateTime) :
    insertOne crates rawReads read recordedAt =
      if read.id ∈ storedIds rawReads then
        .error (.sqlite "UNIQUE constraint failed: raw_reads.id")
      else .ok (rawReads ++ [rowOf crates rawReads ⟨read, recordedAt⟩],
        ⟨maxSeq rawReads + 1, recordedAt, hexLower (crates.sha256 read.rawPayload), read⟩) := by
  obtain ⟨huptime, hmonotonic⟩ := storable_iff.mp h
  have hreader : ∃ stored, read.readerTimestamp.mapM toMicros = .ok stored := by
    cases read.readerTimestamp <;> simp [pure, Except.pure]
  obtain ⟨reader, hreader⟩ := hreader
  obtain ⟨first, hfirst⟩ := map_m_u64_to_i64 huptime "reader_uptime_us"
  obtain ⟨second, hsecond⟩ := map_m_u64_to_i64 hmonotonic "received_at_monotonic_ns"
  unfold insertOne
  rw [hreader, hfirst, hsecond, to_micros_eq, to_micros_eq]
  by_cases hid : read.id ∈ storedIds rawReads
  · rw [if_pos hid]
    simp [hid, bind, Except.bind, throw, throwThe, MonadExceptOf.throw]
  · rw [if_neg hid]
    simp [hid, bind, Except.bind, pure, Except.pure]
    rfl

/-- A batch that is inserted is inserted in order, and comes back as it was given. -/
theorem insert_each_cases {reads : List RawRead} {recordedAt : OffsetDateTime}
    {rawReads rawReads' stored : List StoredRawRead}
    (hstorable : ∀ read ∈ reads, storable read = .ok ())
    (h : insertEach crates recordedAt rawReads reads = .ok (rawReads', stored)) :
    Inserted crates rawReads (reads.map fun read => ⟨read, recordedAt⟩) rawReads' ∧
      stored.map (·.read) = reads := by
  induction reads generalizing rawReads stored with
  | nil =>
      cases h
      exact ⟨.nil _, rfl⟩
  | cons read reads ih =>
      rw [insertEach, insert_one_of_storable (hstorable read List.mem_cons_self)] at h
      -- the first read goes in unless its id is taken, and the others follow it
      by_cases hid : read.id ∈ storedIds rawReads
      · rw [if_pos hid] at h
        cases h
      · rw [if_neg hid] at h
        simp only [bind, Except.bind] at h
        split at h
        · cases h
        · rename_i result hresult
          cases h
          obtain ⟨hinserted, hstored⟩ :=
            ih (fun other hother => hstorable other (List.mem_cons_of_mem _ hother)) hresult
          exact ⟨.cons hid hinserted, by rw [List.map_cons, hstored]⟩

end Splitforge.Storage
