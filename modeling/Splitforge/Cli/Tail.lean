import Splitforge.Cli.RawReadView
import Splitforge.Storage.Checkpoints
import Splitforge.Storage.ReadSince
import Splitforge.Storage.Reconcile

/-!
# Watching reads arrive

`reads tail` polls the journal for the rows after the last one it printed, while another process
writes it. However the writer's calls, crashes and starts fall between the polls, what is printed
is the rows after the starting point, in order and once each, as far as the last poll saw them.
-/

namespace Splitforge.Cli

open Splitforge.Domain Splitforge.Library
open Splitforge.Storage hiding step

/-- `Format`: how the output is laid out. -/
inductive Format where
  | pretty | compact
deriving DecidableEq

/-- The largest `usize` of a 64-bit machine. -/
def usizeMax : Nat := 2 ^ 64 - 1

/-- What `reads tail` is asked for. -/
structure TailOptions where
  since : Option Nat
  limit : Option Nat
  follow : Bool
  format : Format

/-- What ends `tail` early: the journal cannot be read, or a read cannot be written. -/
inductive TailError where
  | journal (error : JournalError)
  | serializing (error : String)

/-- A running `tail`: its two variables, the texts it printed, each on lines of its own, and what
it returned once it has. -/
structure Tail where
  cursor : Nat
  emitted : Nat
  printed : List (List UInt8)
  outcome : Option (Except TailError Unit)

variable (toStringPretty : RawReadView → Except String (List UInt8)) (options : TailOptions)

/-- The rows after which `tail` starts. -/
def TailOptions.after : Nat := options.since.getD 0

/-- How many rows `tail` prints at most. -/
def TailOptions.most : Nat := options.limit.getD usizeMax

/-- The text of a row: one line while following, and indented when it is asked for otherwise. -/
def tailText (stored : StoredRawRead) : Except String (List UInt8) :=
  let view := RawReadView.of stored
  if options.follow || options.format = .compact then view.toJson else toStringPretty view

/-- `tail` before its first poll. -/
def Tail.start : Tail := ⟨options.after, 0, [], none⟩

/-- The rows of one poll, and what follows them: the next poll, or the end. -/
def Tail.emit (tail : Tail) : List StoredRawRead → Tail
  | [] =>
      if !options.follow || options.most ≤ tail.emitted then
        { tail with outcome := some (.ok ()) }
      else tail
  | stored :: batch =>
      if options.most ≤ tail.emitted then { tail with outcome := some (.ok ()) }
      else
        let counted : Tail :=
          { tail with cursor := max tail.cursor stored.seq, emitted := tail.emitted + 1 }
        match tailText toStringPretty options stored with
        | .error error => { counted with outcome := some (.error (.serializing error)) }
        | .ok text => Tail.emit { counted with printed := tail.printed ++ [text] } batch

/-- One poll of a `tail` that has not returned. Reading the journal may fail. -/
def Tail.poll (tail : Tail) (rawReads : List StoredRawRead) (fault : Option JournalError) : Tail :=
  if tail.outcome.isSome then tail
  else
    match fault with
    | some error => { tail with outcome := some (.error (.journal error)) }
    | none => tail.emit toStringPretty options (readSince rawReads tail.cursor)

/-- What is on the terminal. -/
def Tail.stdout (tail : Tail) : List UInt8 := unlines newline tail.printed

/-- A writer and a `tail` of the same journal. -/
structure Watched where
  world : World
  tail : Tail

/-- What happens next: something to the writer, or a poll. -/
inductive TailEvent where
  | writer (event : Event)
  | poll (fault : Option JournalError)

/-- The rows of the journal. -/
def Watched.rawReads (watched : Watched) : List StoredRawRead :=
  watched.world.disk.database.rawReads

variable (crates : Crates)

/-- One event. A poll is one statement, which sees the rows committed before it. -/
def Watched.step (watched : Watched) : TailEvent → Watched
  | .writer event => { watched with world := Storage.step crates watched.world event }
  | .poll fault =>
      { watched with tail := watched.tail.poll toStringPretty options watched.rawReads fault }

/-- A journal nobody has written, and a `tail` of it. -/
def Watched.start : Watched := ⟨World.empty, .start options⟩

/-! ## What is due -/

/-- The rows after the starting point. -/
def later (rawReads : List StoredRawRead) : List StoredRawRead :=
  rawReads.filter fun row => options.after < row.seq

/-- What there is to print: the rows after the starting point, up to the limit. -/
def due (rawReads : List StoredRawRead) : List StoredRawRead :=
  (later options rawReads).take options.most

/-- Where `tail` stands once it has printed some rows. -/
def cursorAt (rows : List StoredRawRead) : Nat :=
  (rows.getLast?.map (·.seq)).getD options.after

/-- Some rows in front of what is due have been printed, and while `tail` runs it has counted them
and stands at the last. Where it returned without an error while following, it has reached its
limit. -/
structure Shows (rawReads rows : List StoredRawRead) (tail : Tail) : Prop where
  ahead : rows <+: due options rawReads
  printed : rows.mapM (tailText toStringPretty options) = .ok tail.printed
  counted : tail.outcome = none →
    tail.emitted = rows.length ∧
      tail.cursor = cursorAt options rows
  done : tail.outcome = some (.ok ()) → options.follow = true → options.most ≤ rows.length

/-- What a poll that reads the journal leaves: all that is due has been printed, and `tail` ends
unless it follows and may print more; or it ends at the first row that cannot be written. -/
inductive Caught (rawReads : List StoredRawRead) (tail : Tail) : Prop where
  | all (printed : (due options rawReads).mapM (tailText toStringPretty options) = .ok tail.printed)
      (outcome : tail.outcome =
        if options.follow = true ∧ (due options rawReads).length < options.most then none
        else some (.ok ()))
  | stuck (front : List StoredRawRead) (row : StoredRawRead) (back : List StoredRawRead)
      (error : String) (due : due options rawReads = front ++ row :: back)
      (printed : front.mapM (tailText toStringPretty options) = .ok tail.printed)
      (unwritten : tailText toStringPretty options row = .error error)
      (outcome : tail.outcome = some (.error (.serializing error)))

variable {toStringPretty options crates}
  {rawReads rows batch : List StoredRawRead} {tail : Tail}

/-- What is due in a table is in front of what is due once it grew. -/
theorem due_append (more : List StoredRawRead) :
    due options rawReads <+: due options (rawReads ++ more) := by
  rw [due, due, later, later, List.filter_append]
  exact (List.prefix_append _ _).take _

/-- The rows after the starting point are in order. -/
theorem later_sorted (h : WellFormed rawReads) :
    (later options rawReads).Pairwise fun first second => first.seq < second.seq :=
  h.seqs_increase.filter _

/-- Where rows are in order, the cursor is not below those that were printed. -/
theorem le_cursor_at (hsorted : (rows ++ batch).Pairwise fun first second => first.seq < second.seq)
    {row : StoredRawRead} (hrow : row ∈ rows) : row.seq ≤ cursorAt options rows := by
  obtain ⟨front, last, rfl⟩ :=
    (List.eq_nil_or_concat' rows).resolve_left (List.ne_nil_of_mem hrow)
  rw [cursorAt, List.getLast?_concat, Option.map_some, Option.getD_some]
  rcases List.mem_append.mp hrow with hfront | hlast
  · have hpair := (List.pairwise_append.mp (List.pairwise_append.mp hsorted).1).2.2 row hfront last
      (List.mem_singleton_self _)
    exact le_of_lt hpair
  · rw [List.mem_singleton.mp hlast]

/-- Where rows are in order, the cursor is below those that follow. -/
theorem cursor_at_lt (hsorted : (rows ++ batch).Pairwise fun first second => first.seq < second.seq)
    (hafter : ∀ row ∈ rows ++ batch, options.after < row.seq) {row : StoredRawRead}
    (hrow : row ∈ batch) : cursorAt options rows < row.seq := by
  cases hlast : rows.getLast? with
  | none =>
      rw [cursorAt, hlast]
      exact hafter row (List.mem_append_right _ hrow)
  | some last =>
      rw [cursorAt, hlast]
      exact (List.pairwise_append.mp hsorted).2.2 last (List.mem_of_getLast? hlast) row hrow

/-- A poll reads the rows behind those that were printed. -/
theorem read_since_cursor (hrows : WellFormed rawReads) (hids : RowIds rawReads)
    (hlater : later options rawReads = rows ++ batch) :
    readSince rawReads (cursorAt options rows) = batch := by
  have hsorted := @later_sorted options _ hrows
  have hafter : ∀ row ∈ later options rawReads, options.after < row.seq := by
    intro row hrow
    exact of_decide_eq_true (List.mem_filter.mp hrow).2
  rw [hlater] at hsorted hafter
  have hle : options.after ≤ cursorAt options rows := by
    cases hlast : rows.getLast? with
    | none => rw [cursorAt, hlast]; exact le_refl _
    | some last =>
        rw [cursorAt, hlast]
        exact le_of_lt (hafter last (List.mem_append_left _ (List.mem_of_getLast? hlast)))
  -- what is above the cursor is above the starting point too
  have hsame : rawReads.filter (fun row => cursorAt options rows < row.seq) =
      (later options rawReads).filter fun row => cursorAt options rows < row.seq := by
    rw [later, List.filter_filter]
    refine List.filter_congr fun row _ => ?_
    rw [← Bool.decide_and]
    refine decide_eq_decide.mpr ?_
    omega
  have hfront : rows.filter (fun row => cursorAt options rows < row.seq) = [] := by
    refine List.filter_eq_nil_iff.mpr fun row hrow => ?_
    have hbound : row.seq ≤ cursorAt options rows := le_cursor_at hsorted hrow
    simp only [decide_eq_true_eq]
    omega
  have hback : batch.filter (fun row => cursorAt options rows < row.seq) = batch := by
    refine List.filter_eq_self.mpr fun row hrow => ?_
    exact decide_eq_true (cursor_at_lt hsorted hafter hrow)
  rw [read_since_eq hrows hids, hsame, hlater, List.filter_append, hfront, hback, List.nil_append]

/-! ## One poll -/

/-- One more row that can be written is printed behind the others. -/
theorem map_m_snoc {row : StoredRawRead} {printed : List (List UInt8)} {text : List UInt8}
    (h : rows.mapM (tailText toStringPretty options) = .ok printed)
    (hrow : tailText toStringPretty options row = .ok text) :
    (rows ++ [row]).mapM (tailText toStringPretty options) = .ok (printed ++ [text]) := by
  rw [List.mapM_append, h, List.mapM_cons, hrow]
  rfl

/-- A `tail` that printed what is due, and follows no further or has reached its limit, ends. -/
theorem shows_finished (h : Shows toStringPretty options rawReads rows tail)
    (hdue : due options rawReads = rows)
    (hend : ¬ (options.follow = true ∧ rows.length < options.most)) :
    Shows toStringPretty options rawReads rows { tail with outcome := some (.ok ()) } ∧
      Caught toStringPretty options rawReads { tail with outcome := some (.ok ()) } := by
  refine ⟨⟨h.ahead, h.printed, ?_, fun _ hfollow => ?_⟩, .all ?_ ?_⟩
  · intro hnone
    cases hnone
  · by_contra hlt
    exact hend ⟨hfollow, by omega⟩
  · rw [hdue]
    exact h.printed
  · rw [hdue, if_neg hend]

/-- The loop of a poll prints what follows the rows that were printed, up to the limit or the
first that cannot be written. -/
theorem emit_shows (hrows : WellFormed rawReads) (hlater : later options rawReads = rows ++ batch)
    (hlimit : rows.length ≤ options.most) (hrunning : tail.outcome = none)
    (h : Shows toStringPretty options rawReads rows tail) :
    (∃ rows',
        Shows toStringPretty options rawReads rows' (tail.emit toStringPretty options batch)) ∧
      Caught toStringPretty options rawReads (tail.emit toStringPretty options batch) := by
  induction batch generalizing tail rows with
  | nil =>
      rw [List.append_nil] at hlater
      have hdue : due options rawReads = rows := by
        rw [due, hlater, List.take_of_length_le hlimit]
      rw [Tail.emit]
      split_ifs with hend
      · have hstop : ¬ (options.follow = true ∧ rows.length < options.most) := by
          simp only [Bool.or_eq_true, Bool.not_eq_true', decide_eq_true_eq] at hend
          intro hgoes
          rcases hend with hoff | hle
          · rw [hoff] at hgoes
            cases hgoes.1
          · rw [(h.counted hrunning).1] at hle
            omega
        exact (shows_finished h hdue hstop).imp_left fun hshows => ⟨rows, hshows⟩
      · refine ⟨⟨rows, h⟩, .all ?_ ?_⟩
        · rw [hdue]
          exact h.printed
        · simp only [Bool.or_eq_true, Bool.not_eq_true', decide_eq_true_eq, not_or] at hend
          rw [(h.counted hrunning).1] at hend
          rw [hdue, if_pos ⟨by simpa using hend.1, by omega⟩, hrunning]
  | cons stored batch ih =>
      obtain ⟨hemitted, hcursor⟩ := h.counted hrunning
      rw [Tail.emit]
      split_ifs with hfull
      · have hlength : rows.length = options.most := by omega
        have hdue : due options rawReads = rows := by
          rw [due, hlater, ← hlength, List.take_left]
        have hstop : ¬ (options.follow = true ∧ rows.length < options.most) := by omega
        exact (shows_finished h hdue hstop).imp_left fun hshows => ⟨rows, hshows⟩
      · have hroom : rows.length < options.most := by omega
        have hdue : due options rawReads =
            rows ++ stored :: batch.take (options.most - rows.length - 1) := by
          rw [due, hlater, List.take_append, List.take_of_length_le hlimit,
            show options.most - rows.length = options.most - rows.length - 1 + 1 by omega,
            List.take_succ_cons, Nat.add_sub_cancel]
        cases htext : tailText toStringPretty options stored with
        | error error =>
            refine ⟨⟨rows, h.ahead, h.printed, ?_, ?_⟩, .stuck rows stored _ error hdue h.printed
              htext rfl⟩
            · intro hnone
              cases hnone
            · intro hok
              cases hok
        | ok text =>
            have hsorted := @later_sorted options _ hrows
            have hafter : ∀ row ∈ later options rawReads, options.after < row.seq := by
              intro row hrow
              exact of_decide_eq_true (List.mem_filter.mp hrow).2
            rw [hlater] at hsorted hafter
            have hnext : cursorAt options rows < stored.seq :=
              cursor_at_lt hsorted hafter List.mem_cons_self
            refine @ih (rows ++ [stored]) _ ?_ ?_ hrunning ⟨?_, map_m_snoc h.printed htext, ?_, ?_⟩
            · rw [hlater, List.append_assoc]
              rfl
            · rw [List.length_append, List.length_singleton]
              omega
            · rw [hdue]
              exact ⟨_, by rw [List.append_assoc]; rfl⟩
            · intro _
              refine ⟨by rw [List.length_append, hemitted]; rfl, ?_⟩
              rw [cursorAt, List.getLast?_concat, Option.map_some, Option.getD_some, hcursor]
              exact max_eq_right (le_of_lt hnext)
            · intro hok
              rw [hrunning] at hok
              cases hok

/-- A poll prints what is due and not yet printed. -/
theorem poll_shows (hrows : WellFormed rawReads) (hids : RowIds rawReads)
    (h : Shows toStringPretty options rawReads rows tail) (fault : Option JournalError) :
    (∃ rows', Shows toStringPretty options rawReads rows'
        (tail.poll toStringPretty options rawReads fault)) ∧
      (tail.outcome = none → fault = none →
        Caught toStringPretty options rawReads
          (tail.poll toStringPretty options rawReads fault)) := by
  unfold Tail.poll
  cases hrunning : tail.outcome with
  | some outcome =>
      simp only [Option.isSome_some, if_true]
      exact ⟨⟨rows, h⟩, fun hnone => by cases hnone⟩
  | none =>
      simp only [Option.isSome_none, Bool.false_eq_true, if_false]
      cases fault with
      | some error =>
          refine ⟨⟨rows, h.ahead, h.printed, ?_, ?_⟩, fun _ hnone => by cases hnone⟩
          · intro hnone
            cases hnone
          · intro hok
            cases hok
      | none =>
          obtain ⟨more, hmore⟩ := h.ahead
          have hlater : later options rawReads =
              rows ++ (more ++ (later options rawReads).drop options.most) := by
            rw [← List.append_assoc, hmore]
            exact (List.take_append_drop _ _).symm
          have hlimit : rows.length ≤ options.most := by
            have hlength := congrArg List.length hmore
            rw [List.length_append, due, List.length_take] at hlength
            omega
          dsimp only
          rw [(h.counted hrunning).2, read_since_cursor hrows hids hlater]
          obtain ⟨hshows, hcaught⟩ := emit_shows hrows hlater hlimit hrunning h
          exact ⟨hshows, fun _ _ => hcaught⟩

/-! ## Runs -/

/-- What happened to the writer. -/
def writerEvents (events : List TailEvent) : List Event :=
  events.filterMap fun event =>
    match event with
    | .writer event => some event
    | .poll _ => none

/-- The reads offered to the writer. -/
def offered (events : List TailEvent) : List RawRead := (writerEvents events).flatMap Event.offers

/-- The polls leave the writer alone. -/
theorem run_world (crates : Crates) (events : List TailEvent) :
    (run (Watched.step toStringPretty options crates) (.start options) events).world =
      run (Storage.step crates) World.empty (writerEvents events) := by
  induction events using List.reverseRecOn with
  | nil => rfl
  | append_singleton events event ih =>
      rw [run_append, run_cons, run_nil, writerEvents, List.filterMap_append, run_append]
      cases event with
      | writer event => exact congrArg (fun world => Storage.step crates world event) ih
      | poll fault => exact ih

/-- In every run the `tail` has printed the front of what is due. -/
theorem run_shows (crates : Crates) {events : List TailEvent}
    (hfew : (offered events).length < 2 ^ 63) :
    ∃ rows, Shows toStringPretty options
      (run (Watched.step toStringPretty options crates) (.start options) events).rawReads rows
      (run (Watched.step toStringPretty options crates) (.start options) events).tail := by
  induction events using List.reverseRecOn with
  | nil =>
      refine ⟨[], List.nil_prefix, rfl, fun _ => ⟨rfl, rfl⟩, fun hok => ?_⟩
      cases hok
  | append_singleton events event ih =>
      have hbefore : (offered events).length < 2 ^ 63 := by
        rw [offered, writerEvents, List.filterMap_append, List.flatMap_append,
          List.length_append] at hfew
        exact lt_of_le_of_lt (Nat.le_add_right _ _) hfew
      obtain ⟨rows, hshows⟩ := ih hbefore
      have hworld := @run_world toStringPretty options crates events
      have hlocated := (run_ahead crates (writerEvents events)).1
      have hids := run_row_ids crates hbefore
      rw [← hworld] at hlocated hids
      rw [run_append, run_cons, run_nil]
      generalize run (Watched.step toStringPretty options crates) (.start options) events = watched
        at hshows hlocated hids
      cases event with
      | writer event =>
          obtain ⟨inserted, hinserted⟩ := @step_inserts crates _ hlocated event
          obtain ⟨more, hmore, _⟩ := hinserted.exists_rows
          refine ⟨rows, ?_, hshows.printed, hshows.counted, hshows.done⟩
          show rows <+: due options (Storage.step crates watched.world event).disk.database.rawReads
          rw [hmore]
          exact hshows.ahead.trans (due_append more)
      | poll fault => exact (poll_shows hlocated.rows hids hshows fault).1

/-- Every text of a row is one line, from which the row's view is read back, when `tail` follows
or its output is compact. -/
theorem read_back_printed (hcompact : options.follow = true ∨ options.format = .compact)
    {printed : List (List UInt8)}
    (h : rows.mapM (tailText toStringPretty options) = .ok printed) :
    (∀ text ∈ printed, newline ∉ text) ∧
      printed.mapM readView = some (rows.map RawReadView.of) := by
  induction rows generalizing printed with
  | nil =>
      cases h
      exact ⟨fun _ hmem => (by cases hmem), rfl⟩
  | cons row rows ih =>
      rw [List.mapM_cons] at h
      obtain ⟨text, htext, h⟩ := exists_of_bind h
      obtain ⟨texts, htexts, h⟩ := exists_of_bind h
      cases h
      obtain ⟨hlines, hviews⟩ := ih htexts
      have hjson : (RawReadView.of row).toJson = .ok text := by
        rw [← htext, tailText]
        rcases hcompact with hfollow | hformat
        · simp [hfollow]
        · simp [hformat]
      obtain ⟨hview, hline⟩ := read_view_to_json hjson
      refine ⟨?_, ?_⟩
      · intro other hother
        rcases List.mem_cons.mp hother with rfl | hother
        · exact hline
        · exact hlines other hother
      · rw [List.mapM_cons, hview, hviews]
        rfl

/-- However the writer's appends, checkpoints, crashes and starts fall between the polls, what
`reads tail` has printed is the front of the rows after its starting point, up to its limit, in
order and once each, and all of them once a poll has read them or a followed `tail` returned. While
it follows, or is compact, each line of the output reads back as its row's view. -/
theorem tail_prints_due (toStringPretty : RawReadView → Except String (List UInt8))
    (options : TailOptions) (crates : Crates) (events : List TailEvent)
    (hfew : (offered events).length < 2 ^ 63) :
    let watched := run (Watched.step toStringPretty options crates) (.start options) events
    (∃ rows, rows <+: due options watched.rawReads ∧
      rows.mapM (tailText toStringPretty options) = .ok watched.tail.printed ∧
      (watched.tail.outcome = some (.ok ()) → options.follow = true →
        rows = due options watched.rawReads) ∧
      (options.follow = true ∨ options.format = .compact →
        lines newline watched.tail.stdout = (watched.tail.printed, []) ∧
          watched.tail.printed.mapM readView = some (rows.map RawReadView.of))) ∧
    (watched.tail.outcome = none →
      Caught toStringPretty options watched.rawReads
        (watched.step toStringPretty options crates (.poll none)).tail) := by
  intro watched
  obtain ⟨rows, hshows⟩ := @run_shows toStringPretty options crates events hfew
  have hworld := @run_world toStringPretty options crates events
  have hlocated := (run_ahead crates (writerEvents events)).1
  have hids := run_row_ids crates hfew
  rw [← hworld] at hlocated hids
  refine ⟨⟨rows, hshows.ahead, hshows.printed, fun hok hfollow => ?_, fun hcompact => ?_⟩,
    fun hrunning => (poll_shows hlocated.rows hids hshows none).2 hrunning rfl⟩
  · -- a followed `tail` that returned has printed as many rows as it may
    have hlength := hshows.done hok hfollow
    refine hshows.ahead.eq_of_length_le ?_
    rw [due, List.length_take]
    exact le_trans (min_le_left _ _) hlength
  · obtain ⟨hlines, hviews⟩ := read_back_printed hcompact hshows.printed
    exact ⟨lines_unlines hlines, hviews⟩

/-- A writer whose first append fails, which appends another read, stops, and starts again; and
two polls. -/
def watchedRestart : List TailEvent :=
  (appendAfterFailure ⟨.fromU128 1⟩ ⟨.fromU128 2⟩).map .writer ++
    [.poll none, .writer .crash, .writer (.openRecovering "reads.sfj" calm), .poll none]

/-- A `tail` that follows from the start, without a limit. -/
def followAll : TailOptions := ⟨none, none, true, .pretty⟩

theorem tail_prints_due_restart :
    let watched := run (Watched.step RawReadView.toJson followAll serde) (.start followAll)
      watchedRestart
    ∃ rows, rows <+: due followAll watched.rawReads ∧
      watched.tail.printed.mapM readView = some (rows.map RawReadView.of) := by
  intro watched
  obtain ⟨rows, hahead, _, _, hcompact⟩ :=
    (tail_prints_due RawReadView.toJson followAll serde watchedRestart (by decide)).1
  exact ⟨rows, hahead, (hcompact (Or.inl rfl)).2⟩

end Splitforge.Cli
