import Splitforge.Domain.Gap
import Splitforge.Library.Episodes
import Splitforge.Library.Runs
import Splitforge.Storage.Connection

/-!
# Reader gaps

The journal keeps a gap as two rows: an edge that opens it and an edge that closes it, which
names the row it closes. A row is never changed or deleted, so a gap is closed by a row that
comes later, and every query pairs the edges by joining the table with itself.

An edge and a detection stand as the values their tokens parse to, which are the tokens the
table's checks let in. An instant stands as it comes back from its column.
-/

namespace Splitforge.Storage

open Splitforge.Domain Splitforge.Library

/-- A row of `reader_gap_events`. -/
structure ReaderGapEvent where
  seq : Nat
  readerId : ReaderId
  edge : GapEdge
  detection : GapDetection
  observedAt : OffsetDateTime
  monotonicMs : Nat
  closesSeq : Option Nat
  detail : Option String
deriving DecidableEq

/-- `i64::try_from(value).unwrap_or(i64::MAX)` of an unsigned value. -/
def i64Saturated (value : Nat) : Nat := min value i64Max.toNat

/-- The highest key of the table. -/
def lastSeq (events : List ReaderGapEvent) : Nat :=
  events.foldr (fun event most => max event.seq most) 0

/-- `INSERT INTO reader_gap_events`: the rows with one more, whose key is one above every key the
table has had. `failure` is what SQLite reports when the statement does not go through. -/
def insertEvent (events : List ReaderGapEvent) (failure : Option String)
    (event : Nat → ReaderGapEvent) : Except StorageError (List ReaderGapEvent × Nat) :=
  match failure with
  | some text => .error (.sqlite text)
  | none =>
      let seq := lastSeq events + 1
      let row := event seq
      if i64Max < (seq : Int) then .error (.sqlite "database or disk is full")
      else if ¬ (row.edge = .closed ↔ row.closesSeq.isSome) then
        .error (.sqlite
          "CHECK constraint failed: (edge = 'closed') = (closes_seq IS NOT NULL)")
      else if row.closesSeq.isSome ∧ ∃ other ∈ events, other.closesSeq = row.closesSeq then
        .error (.sqlite "UNIQUE constraint failed: reader_gap_events.closes_seq")
      else if ∃ closes ∈ row.closesSeq, ∀ other ∈ events, other.seq ≠ closes then
        .error (.sqlite "FOREIGN KEY constraint failed")
      else .ok (events ++ [row], seq)

/-! ## Queries -/

/-- What the join of `gap_query` looks at. -/
def gapView : EdgeView ReaderGapEvent ReaderId GapDetection where
  key := (·.readerId)
  opens event := event.edge = .opened
  number := (·.seq)
  closes := (·.closesSeq)
  mark := (·.detection)

/-- `gap_from_row`: the gap of a paired row. -/
def gapFromRow (row : ReaderGapEvent × Option ReaderGapEvent) : ReaderGap where
  openedSeq := row.1.seq
  closedSeq := row.2.map (·.seq)
  readerId := row.1.readerId
  detection := row.1.detection
  startedAt := row.1.observedAt
  endedAt := row.2.map (·.observedAt)
  startedMonotonicMs := row.1.monotonicMs
  endedMonotonicMs := row.2.map (·.monotonicMs)
  detail := row.1.detail

/-- `gap_query`: the rows `reader_gap_events AS opened LEFT JOIN reader_gap_events AS closed ON
closed.closes_seq = opened.seq` whose first half opens, in the order of `opened.seq`. -/
def gapQuery (events : List ReaderGapEvent) : List (ReaderGapEvent × Option ReaderGapEvent) :=
  joined gapView events

/-- `open_reader_gap_for`. -/
def openReaderGapFor (events : List ReaderGapEvent) (readerId : ReaderId) : Option ReaderGap :=
  ((gapQuery events).filter fun row =>
    row.1.readerId = readerId ∧ row.2.isNone).head?.map gapFromRow

/-- `open_reader_gaps`. -/
def openReaderGaps (events : List ReaderGapEvent) : List ReaderGap :=
  ((gapQuery events).filter (·.2.isNone)).map gapFromRow

/-- `recent_reader_gaps`. -/
def recentReaderGaps (events : List ReaderGapEvent) (limit : Nat) : List ReaderGap :=
  ((gapQuery events).reverse.take limit).map gapFromRow

/-- `reader_gap_count`. -/
def readerGapCount (events : List ReaderGapEvent) : Nat :=
  events.countP fun event => event.edge = .opened

/-! ## Opening and closing -/

/-- What a caller tells about an edge: its two clocks, and what it can say about the cause. -/
structure Observed where
  «at» : OffsetDateTime
  monotonicMs : Nat
  detail : Option String
deriving DecidableEq

/-- `open_reader_gap`: opens a gap, or returns the one already open. -/
def openReaderGap (events : List ReaderGapEvent) (failure : Option String) (readerId : ReaderId)
    (detection : GapDetection) (observed : Observed) :
    Except StorageError ReaderGap × List ReaderGapEvent :=
  match openReaderGapFor events readerId with
  | some existing => (.ok existing, events)
  | none =>
      match toMicros observed.at with
      | .error error => (.error error, events)
      | .ok _ =>
          match insertEvent events failure fun seq =>
              ⟨seq, readerId, .opened, detection, wholeMicros observed.at,
                i64Saturated observed.monotonicMs, none, observed.detail⟩ with
          | .error error => (.error error, events)
          | .ok (events, seq) =>
              -- the caller gets its own monotonic reading back, not the column's
              (.ok ⟨seq, none, readerId, detection, wholeMicros observed.at, none,
                observed.monotonicMs, none, observed.detail⟩, events)

/-- `close_reader_gap`: closes the gap open for a reader and returns it, if one was open. -/
def closeReaderGap (events : List ReaderGapEvent) (failure : Option String) (readerId : ReaderId)
    (observed : Observed) : Except StorageError (Option ReaderGap) × List ReaderGapEvent :=
  match openReaderGapFor events readerId with
  | none => (.ok none, events)
  | some gap =>
      match toMicros observed.at with
      | .error error => (.error error, events)
      | .ok _ =>
          match insertEvent events failure fun seq =>
              ⟨seq, readerId, .closed, gap.detection, wholeMicros observed.at,
                i64Saturated observed.monotonicMs, some (i64Saturated gap.openedSeq),
                observed.detail⟩ with
          | .error error => (.error error, events)
          | .ok (events, seq) =>
              (.ok (some { gap with
                closedSeq := some seq
                endedAt := some (wholeMicros observed.at)
                endedMonotonicMs := some observed.monotonicMs }), events)

/-- A call on the table, with what SQLite reports if its insert does not go through. -/
inductive GapCall where
  | openReaderGap (failure : Option String) (readerId : ReaderId) (detection : GapDetection)
      (observed : Observed)
  | closeReaderGap (failure : Option String) (readerId : ReaderId) (observed : Observed)

/-- Whose gap a call is about. -/
def GapCall.readerId : GapCall → ReaderId
  | .openReaderGap _ readerId _ _ => readerId
  | .closeReaderGap _ readerId _ => readerId

/-- The table a call leaves. -/
def gapStep (events : List ReaderGapEvent) : GapCall → List ReaderGapEvent
  | .openReaderGap failure readerId detection observed =>
      (openReaderGap events failure readerId detection observed).2
  | .closeReaderGap failure readerId observed =>
      (closeReaderGap events failure readerId observed).2

/-! ## Edges that follow one another -/

/-- The edge an opening call writes. -/
def openingEdge (events : List ReaderGapEvent) (readerId : ReaderId) (detection : GapDetection)
    (observed : Observed) : ReaderGapEvent :=
  ⟨events.length + 1, readerId, .opened, detection, wholeMicros observed.at,
    i64Saturated observed.monotonicMs, none, observed.detail⟩

/-- The edge a closing call writes behind an opening edge. -/
def closingEdge (events : List ReaderGapEvent) (opened : ReaderGapEvent) (observed : Observed) :
    ReaderGapEvent :=
  ⟨events.length + 1, opened.readerId, .closed, opened.detection, wholeMicros observed.at,
    i64Saturated observed.monotonicMs, some opened.seq, observed.detail⟩

/-- A table whose edges follow one another, and whose keys fit their column. -/
structure GapTable (events : List ReaderGapEvent) : Prop where
  paired : Paired gapView events
  seqs : (events.length : Int) ≤ i64Max

theorem gap_table_nil : GapTable [] := ⟨paired_nil, by show (0 : Int) ≤ i64Max; simp [i64Max]⟩

variable {events : List ReaderGapEvent} {readerId : ReaderId} {failure : Option String}

theorem last_seq_append_singleton (events : List ReaderGapEvent) (event : ReaderGapEvent) :
    lastSeq (events ++ [event]) = max (lastSeq events) event.seq := by
  induction events with
  | nil => simp [lastSeq]
  | cons other events ih => simp only [lastSeq, List.cons_append, List.foldr_cons] at ih ⊢; omega

/-- The highest key is the number of rows. -/
theorem last_seq_eq (h : Paired gapView events) : lastSeq events = events.length := by
  induction events using List.reverseRecOn with
  | nil => rfl
  | append_singleton events event ih =>
      have hnumber : event.seq = events.length + 1 := h.last.number
      rw [last_seq_append_singleton, ih h.of_append, hnumber, List.length_append,
        List.length_singleton]
      omega

/-- A reader's open gap is that of its last edge, if that one opens. -/
theorem open_reader_gap_for_eq (h : Paired gapView events) (readerId : ReaderId) :
    openReaderGapFor events readerId =
      match lastEdge gapView readerId events with
      | some last => if last.edge = .opened then some (gapFromRow (last, none)) else none
      | none => none := by
  rw [openReaderGapFor, gapQuery, h.joined_eq]
  have hopen := @open_episodes _ _ _ _ gapView readerId events
  rw [show (fun row : ReaderGapEvent × Option ReaderGapEvent =>
      decide (row.1.readerId = readerId ∧ row.2.isNone)) = fun episode =>
      decide (gapView.key episode.1 = readerId ∧ episode.2.isNone) from rfl, hopen]
  cases lastEdge gapView readerId events with
  | none => rfl
  | some last => by_cases hedge : last.edge = .opened <;> simp [gapView, hedge]

/-- The edge behind the open gap of a reader. -/
theorem open_reader_gap_for_eq_some (h : Paired gapView events) {gap : ReaderGap} :
    openReaderGapFor events readerId = some gap ↔ ∃ last,
      lastEdge gapView readerId events = some last ∧ last.edge = .opened ∧
        gap = gapFromRow (last, none) := by
  rw [open_reader_gap_for_eq h]
  cases lastEdge gapView readerId events with
  | none => simp
  | some last =>
      by_cases hedge : last.edge = .opened
      · simp [hedge, eq_comm]
      · simp only [if_neg hedge, Option.some.injEq, reduceCtorEq, false_iff]
        intro ⟨other, hother, hopened, _⟩
        exact hedge (hother ▸ hopened)

/-- A reader with no open gap has no edge, or closed its last gap. -/
theorem open_reader_gap_for_eq_none (h : Paired gapView events) :
    openReaderGapFor events readerId = none ↔ ∀ last,
      lastEdge gapView readerId events = some last → last.edge = .closed := by
  rw [open_reader_gap_for_eq h]
  cases lastEdge gapView readerId events with
  | none => simp
  | some last => cases hedge : last.edge <;> simp [hedge]

/-- An opening edge follows a table that has no open gap of its reader. -/
theorem extends_opening_edge (h : Paired gapView events)
    (hnone : openReaderGapFor events readerId = none) (detection : GapDetection)
    (observed : Observed) :
    Extends gapView events (openingEdge events readerId detection observed) where
  number := rfl
  opened := fun _ => by
    refine ⟨rfl, ?_⟩
    intro last hlast
    have hclosed := (open_reader_gap_for_eq_none h).mp hnone last hlast
    simp [gapView, hclosed]
  closed := fun hopens => by simp [gapView, openingEdge] at hopens

/-- A closing edge follows a table whose last edge of its reader is the one it closes. -/
theorem extends_closing_edge {opened : ReaderGapEvent}
    (hlast : lastEdge gapView readerId events = some opened) (hopened : opened.edge = .opened)
    (observed : Observed) : Extends gapView events (closingEdge events opened observed) where
  number := rfl
  opened := fun hopens => by simp [gapView, closingEdge] at hopens
  closed := fun _ => by
    obtain ⟨_, rfl⟩ := mem_of_last_edge hlast
    exact ⟨opened, hlast, by simp [gapView, hopened], rfl, rfl⟩

/-! ## What a call does -/

/-- Storing a key gives the key back. -/
theorem GapTable.i64_saturated_seq (h : GapTable events) {event : ReaderGapEvent}
    (hevent : event ∈ events) : i64Saturated event.seq = event.seq := by
  have hle : event.seq ≤ events.length := h.paired.number_le hevent
  have hseqs := h.seqs
  rw [i64Saturated]
  omega

/-- An edge that follows the table is written, unless SQLite fails or the keys have run out. -/
theorem GapTable.insert_event (h : GapTable events) (failure : Option String)
    (event : Nat → ReaderGapEvent)
    (hcheck : (event (events.length + 1)).edge = .closed ↔
      (event (events.length + 1)).closesSeq.isSome)
    (hextends : Extends gapView events (event (events.length + 1))) :
    (∃ error, insertEvent events failure event = .error error) ∨
      insertEvent events failure event =
          .ok (events ++ [event (events.length + 1)], events.length + 1) ∧
        GapTable (events ++ [event (events.length + 1)]) := by
  unfold insertEvent
  cases failure with
  | some text => exact Or.inl ⟨_, rfl⟩
  | none =>
      have hlastSeq := last_seq_eq h.paired
      simp only [hlastSeq]
      by_cases hfull : i64Max < ((events.length + 1 : Nat) : Int)
      · rw [if_pos hfull]
        exact Or.inl ⟨_, rfl⟩
      · rw [if_neg hfull, if_neg (not_not_intro hcheck)]
        have hunique : ¬ ((event (events.length + 1)).closesSeq.isSome ∧
            ∃ other ∈ events, other.closesSeq = (event (events.length + 1)).closesSeq) := by
          intro ⟨hsome, other, hother, hsame⟩
          obtain ⟨closes, hcloses⟩ := Option.isSome_iff_exists.mp hsome
          exact (h.paired.closes_fresh hextends hcloses).2 other hother (hsame.trans hcloses)
        have hforeign : ¬ ∃ closes ∈ (event (events.length + 1)).closesSeq,
            ∀ other ∈ events, other.seq ≠ closes := by
          intro ⟨closes, hcloses, hmissing⟩
          obtain ⟨opened, hopened, hnumber⟩ := (h.paired.closes_fresh hextends hcloses).1
          exact hmissing opened hopened hnumber
        rw [if_neg hunique, if_neg hforeign]
        refine Or.inr ⟨rfl, h.paired.snoc hextends, ?_⟩
        rw [List.length_append, List.length_singleton]
        omega

theorem open_reader_gap_of_open {gap : ReaderGap} (h : openReaderGapFor events readerId = some gap)
    (failure : Option String) (detection : GapDetection) (observed : Observed) :
    openReaderGap events failure readerId detection observed = (.ok gap, events) := by
  rw [openReaderGap, h]

/-- With no gap open, an opening call writes its edge or fails. -/
theorem GapTable.open_reader_gap (h : GapTable events)
    (hnone : openReaderGapFor events readerId = none) (failure : Option String)
    (detection : GapDetection) (observed : Observed) :
    (∃ error, openReaderGap events failure readerId detection observed = (.error error, events)) ∨
      (openReaderGap events failure readerId detection observed).2 =
          events ++ [openingEdge events readerId detection observed] ∧
        GapTable (events ++ [openingEdge events readerId detection observed]) := by
  rw [openReaderGap, hnone, to_micros_eq]
  rcases h.insert_event failure (fun seq =>
      ⟨seq, readerId, .opened, detection, wholeMicros observed.at,
        i64Saturated observed.monotonicMs, none, observed.detail⟩) (by simp)
      (extends_opening_edge h.paired hnone detection observed) with
    ⟨error, herror⟩ | ⟨hinsert, htable⟩
  · exact Or.inl ⟨error, by simp only [herror]⟩
  · exact Or.inr ⟨by simp only [hinsert]; rfl, htable⟩

theorem close_reader_gap_of_none (h : openReaderGapFor events readerId = none)
    (failure : Option String) (observed : Observed) :
    closeReaderGap events failure readerId observed = (.ok none, events) := by
  rw [closeReaderGap, h]

/-- With a gap open, a closing call writes the edge that closes it or fails. -/
theorem GapTable.close_reader_gap (h : GapTable events) {opened : ReaderGapEvent}
    (hlast : lastEdge gapView readerId events = some opened) (hopened : opened.edge = .opened)
    (failure : Option String) (observed : Observed) :
    (∃ error, closeReaderGap events failure readerId observed = (.error error, events)) ∨
      (closeReaderGap events failure readerId observed).2 =
          events ++ [closingEdge events opened observed] ∧
        GapTable (events ++ [closingEdge events opened observed]) := by
  obtain ⟨hmem, rfl⟩ := mem_of_last_edge hlast
  have hopen := (open_reader_gap_for_eq_some h.paired).mpr ⟨opened, hlast, hopened, rfl⟩
  have hseq : i64Saturated (gapFromRow (opened, none)).openedSeq = opened.seq :=
    h.i64_saturated_seq hmem
  rw [closeReaderGap, show gapView.key opened = opened.readerId from rfl] at *
  rw [hopen, to_micros_eq]
  rcases h.insert_event failure (fun seq =>
      ⟨seq, opened.readerId, .closed, opened.detection, wholeMicros observed.at,
        i64Saturated observed.monotonicMs, some opened.seq, observed.detail⟩) (by simp)
      (extends_closing_edge hlast hopened observed) with
    ⟨error, herror⟩ | ⟨hinsert, htable⟩
  · exact Or.inl ⟨error, by simp only [hseq]; simp only [gapFromRow, herror]⟩
  · refine Or.inr ⟨?_, htable⟩
    simp only [hseq]
    simp only [gapFromRow, hinsert]
    rfl

/-- What an opening call can do to a table: nothing, or one opening edge. -/
theorem GapTable.open_cases (h : GapTable events) (failure : Option String) (readerId : ReaderId)
    (detection : GapDetection) (observed : Observed) :
    (openReaderGap events failure readerId detection observed).2 = events ∨
      (openReaderGap events failure readerId detection observed).2 =
          events ++ [openingEdge events readerId detection observed] ∧
        GapTable (events ++ [openingEdge events readerId detection observed]) := by
  cases hopen : openReaderGapFor events readerId with
  | some gap =>
      rw [open_reader_gap_of_open hopen]
      exact Or.inl rfl
  | none =>
      rcases h.open_reader_gap hopen failure detection observed with ⟨error, herror⟩ | hwritten
      · rw [herror]
        exact Or.inl rfl
      · exact Or.inr hwritten

/-- What a closing call can do to a table: nothing, or one edge that closes the open gap. -/
theorem GapTable.close_cases (h : GapTable events) (failure : Option String) (readerId : ReaderId)
    (observed : Observed) :
    (closeReaderGap events failure readerId observed).2 = events ∨
      ∃ opened, lastEdge gapView readerId events = some opened ∧ opened.edge = .opened ∧
        (closeReaderGap events failure readerId observed).2 =
          events ++ [closingEdge events opened observed] ∧
        GapTable (events ++ [closingEdge events opened observed]) := by
  cases hopen : openReaderGapFor events readerId with
  | none =>
      rw [close_reader_gap_of_none hopen]
      exact Or.inl rfl
  | some gap =>
      obtain ⟨opened, hlast, hopened, rfl⟩ := (open_reader_gap_for_eq_some h.paired).mp hopen
      rcases h.close_reader_gap hlast hopened failure observed with ⟨error, herror⟩ | hwritten
      · rw [herror]
        exact Or.inl rfl
      · exact Or.inr ⟨opened, hlast, hopened, hwritten⟩

/-- What a call can do to a table: nothing, or one more edge of its reader. -/
theorem GapTable.step_cases (h : GapTable events) (call : GapCall) :
    gapStep events call = events ∨ ∃ edge, gapStep events call = events ++ [edge] ∧
      edge.readerId = call.readerId ∧ GapTable (events ++ [edge]) := by
  cases call with
  | openReaderGap failure readerId detection observed =>
      rcases h.open_cases failure readerId detection observed with hsame | ⟨hwritten, htable⟩
      · exact Or.inl hsame
      · exact Or.inr ⟨_, hwritten, rfl, htable⟩
  | closeReaderGap failure readerId observed =>
      rcases h.close_cases failure readerId observed with
        hsame | ⟨opened, hlast, _, hwritten, htable⟩
      · exact Or.inl hsame
      · exact Or.inr ⟨_, hwritten, (mem_of_last_edge hlast).2, htable⟩

/-- Every call keeps a table whose edges follow one another. -/
theorem GapTable.step (h : GapTable events) (call : GapCall) : GapTable (gapStep events call) := by
  rcases h.step_cases call with hsame | ⟨edge, hwritten, _, htable⟩
  · rw [hsame]
    exact h
  · rw [hwritten]
    exact htable

/-- After any calls on an empty table its edges follow one another. -/
theorem gap_table_run (calls : List GapCall) : GapTable (run gapStep [] calls) :=
  @run_keeps _ _ _ GapTable (fun _ call h => h.step call) _ gap_table_nil calls

end Splitforge.Storage
