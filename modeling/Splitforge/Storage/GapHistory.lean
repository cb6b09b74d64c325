import Splitforge.Storage.Gaps

/-!
# What the gap table says

The edges of a reader alternate, so the gaps of a table are its opening edges, each with the next
edge of its reader. Every query is about that list of gaps, and a call for one reader changes no
gap of another.
-/

namespace Splitforge.Storage

open Splitforge.Domain Splitforge.Library

/-- The gaps of a table, oldest first: every opening edge with the next edge of its reader. -/
def history (events : List ReaderGapEvent) : List ReaderGap :=
  (episodes gapView events).map gapFromRow

/-- The edge at a place, where the edges of a reader alternate. -/
def edgeAt (place : Nat) : GapEdge := if place % 2 = 0 then .opened else .closed

/-- The edges of a reader. -/
def edgesFor (events : List ReaderGapEvent) (readerId : ReaderId) : List GapEdge :=
  (events.filter fun event => event.readerId = readerId).map (·.edge)

/-- The gaps of a reader among some. -/
def gapsFor (gaps : List ReaderGap) (readerId : ReaderId) : List ReaderGap :=
  gaps.filter fun gap => gap.readerId = readerId

/-- For each reader the edges alternate and at most one gap is open; and a closed edge names the
latest opened edge of its own reader, which nothing before closes, and carries its detection. -/
structure EdgesAlternate (events : List ReaderGapEvent) : Prop where
  alternate : ∀ readerId,
    edgesFor events readerId = (List.range (edgesFor events readerId).length).map edgeAt
  one_open : ∀ readerId, ((gapsFor (history events) readerId).filter (·.isOpen)).length ≤ 1
  closed : ∀ before event after, events = before ++ event :: after → event.edge = .closed →
    ∃ opened, (before.filter fun other =>
        other.readerId = event.readerId ∧ other.edge = .opened).getLast? = some opened ∧
      event.closesSeq = some opened.seq ∧ event.detection = opened.detection ∧
      ∀ other ∈ before, other.closesSeq ≠ some opened.seq

/-- Every query says what the history says. -/
structure QueriesAgree (events : List ReaderGapEvent) : Prop where
  open_for : ∀ readerId,
    openReaderGapFor events readerId = (gapsFor (history events) readerId).find? (·.isOpen)
  open_gaps : openReaderGaps events = (history events).filter (·.isOpen)
  recent : ∀ limit, recentReaderGaps events limit = (history events).reverse.take limit
  count : readerGapCount events = (history events).length

/-- A call changes nothing that a query says about another reader. A query with a limit below the
number of gaps can leave out older gaps of another reader, and changes none that it returns. -/
structure LeavesOthers (events : List ReaderGapEvent) (call : GapCall) : Prop where
  open_for : ∀ other ≠ call.readerId,
    openReaderGapFor (gapStep events call) other = openReaderGapFor events other
  open_gaps : ∀ other ≠ call.readerId,
    gapsFor (openReaderGaps (gapStep events call)) other = gapsFor (openReaderGaps events) other
  recent : ∀ other ≠ call.readerId, ∀ limit,
    gapsFor (recentReaderGaps (gapStep events call) limit) other <+:
      gapsFor (recentReaderGaps events limit) other
  recent_all : ∀ other ≠ call.readerId, ∀ limit, readerGapCount (gapStep events call) ≤ limit →
    gapsFor (recentReaderGaps (gapStep events call) limit) other =
      gapsFor (recentReaderGaps events limit) other

variable {events : List ReaderGapEvent}

/-! ## Edges -/

/-- The edge that opens, or not. -/
def edgeOf (opens : Bool) : GapEdge := if opens then .opened else .closed

theorem edge_of_opens (event : ReaderGapEvent) : edgeOf (gapView.opens event) = event.edge := by
  cases hedge : event.edge <;> simp [edgeOf, gapView, hedge]

theorem edge_of_opens_at (place : Nat) : edgeOf (opensAt place) = edgeAt place := by
  simp [edgeOf, opensAt, edgeAt]

theorem edges_alternate (h : Paired gapView events) (readerId : ReaderId) :
    edgesFor events readerId = (List.range (edgesFor events readerId).length).map edgeAt := by
  have hedges : edgesFor events readerId =
      ((edgesOf gapView readerId events).map gapView.opens).map edgeOf := by
    rw [List.map_map]
    exact List.map_congr_left fun event _ => (edge_of_opens event).symm
  have hlength : (edgesFor events readerId).length = (edgesOf gapView readerId events).length :=
    List.length_map ..
  rw [hlength, hedges, h.alternate, List.map_map]
  exact List.map_congr_left fun place _ => edge_of_opens_at place

/-- What is last in a list is last among the elements that share a property it has. -/
theorem get_last_filter {events : List ReaderGapEvent} {last : ReaderGapEvent}
    (h : events.getLast? = some last) (keep : ReaderGapEvent → Bool) (hkeep : keep last = true) :
    (events.filter keep).getLast? = some last := by
  obtain ⟨before, rfl⟩ := List.getLast?_eq_some_iff.mp h
  rw [List.filter_append, List.filter_cons_of_pos hkeep, List.filter_nil, List.getLast?_concat]

/-- A closed edge names its reader's latest opened edge, which nothing before it closes. -/
theorem closed_edge {before after : List ReaderGapEvent} {event : ReaderGapEvent}
    (h : Paired gapView (before ++ event :: after)) (hedge : event.edge = .closed) :
    ∃ opened, (before.filter fun other =>
        other.readerId = event.readerId ∧ other.edge = .opened).getLast? = some opened ∧
      event.closesSeq = some opened.seq ∧ event.detection = opened.detection ∧
      ∀ other ∈ before, other.closesSeq ≠ some opened.seq := by
  have hextends := h before event after rfl
  have hcloses : gapView.opens event = false := by simp [gapView, hedge]
  obtain ⟨last, hlast, hopens, hcloses, hmark⟩ := hextends.closed hcloses
  refine ⟨last, ?_, hcloses, hmark, h.closes_once hlast hopens⟩
  have hopened := get_last_filter hlast (fun other => other.edge = .opened) hopens
  rw [edgesOf, List.filter_filter] at hopened
  rw [← hopened]
  congr 2
  funext other
  exact (Bool.decide_and ..).trans (Bool.and_comm ..)

/-! ## Queries -/

theorem is_open_gap_from_row (row : ReaderGapEvent × Option ReaderGapEvent) :
    (gapFromRow row).isOpen = row.2.isNone := Option.isNone_map

theorem gaps_for_cons_of_ne {gap : ReaderGap} {readerId : ReaderId}
    (h : gap.readerId ≠ readerId) (gaps : List ReaderGap) :
    gapsFor (gap :: gaps) readerId = gapsFor gaps readerId :=
  List.filter_cons_of_neg (by simpa using h)

theorem gaps_for_map (rows : List (ReaderGapEvent × Option ReaderGapEvent)) (readerId : ReaderId) :
    gapsFor (rows.map gapFromRow) readerId =
      (rows.filter fun row => row.1.readerId = readerId).map gapFromRow :=
  List.filter_map

/-- The open gaps of a reader: none, or that of its last edge. -/
theorem open_gaps_for (events : List ReaderGapEvent) (readerId : ReaderId) :
    (gapsFor (history events) readerId).filter (·.isOpen) =
      match lastEdge gapView readerId events with
      | some last => if last.edge = .opened then [gapFromRow (last, none)] else []
      | none => [] := by
  have hopen := @open_episodes _ _ _ _ gapView readerId events
  rw [history, gaps_for_map, List.filter_map, List.filter_filter]
  have hkeep : (fun row : ReaderGapEvent × Option ReaderGapEvent =>
      (ReaderGap.isOpen ∘ gapFromRow) row && decide (row.1.readerId = readerId)) =
      fun episode => decide (gapView.key episode.1 = readerId ∧ episode.2.isNone) := by
    funext row
    rw [Function.comp_apply, is_open_gap_from_row, Bool.decide_and, Bool.and_comm,
      Bool.decide_coe]
    rfl
  rw [hkeep, hopen]
  cases lastEdge gapView readerId events with
  | none => rfl
  | some last => by_cases hedge : last.edge = .opened <;> simp [gapView, hedge]

theorem queries_agree (h : Paired gapView events) : QueriesAgree events where
  open_for := fun readerId => by
    rw [← List.head?_filter, open_gaps_for, open_reader_gap_for_eq h]
    cases lastEdge gapView readerId events with
    | none => rfl
    | some last => by_cases hedge : last.edge = .opened <;> simp [hedge]
  open_gaps := by
    rw [openReaderGaps, gapQuery, h.joined_eq, history, List.filter_map]
    congr 2
    funext row
    exact (is_open_gap_from_row row).symm
  recent := fun limit => by
    rw [recentReaderGaps, gapQuery, h.joined_eq, history, List.map_take, List.map_reverse]
  count := by
    rw [readerGapCount, history, List.length_map, length_episodes]
    rfl

/-! ## One more edge -/

/-- What an edge does to a gap: it ends the open gap of its reader. -/
def endWith (edge : ReaderGapEvent) (row : ReaderGapEvent × Option ReaderGapEvent) :
    ReaderGapEvent × Option ReaderGapEvent :=
  (row.1, row.2.or (if edge.readerId = row.1.readerId then some edge else none))

/-- The gap an edge begins, if it begins one. -/
def beginWith (edge : ReaderGapEvent) : List (ReaderGapEvent × Option ReaderGapEvent) :=
  if edge.edge = .opened then [(edge, none)] else []

theorem episodes_concat (events : List ReaderGapEvent) (edge : ReaderGapEvent) :
    episodes gapView (events ++ [edge]) =
      (episodes gapView events).map (endWith edge) ++ beginWith edge := by
  rw [episodes_append_singleton, beginWith]
  congr 1
  by_cases hedge : edge.edge = .opened <;> simp [gapView, hedge]

/-- An edge of one reader leaves the gaps of another. -/
theorem gaps_for_end_with {edge : ReaderGapEvent} {other : ReaderId}
    (hother : other ≠ edge.readerId) (rows : List (ReaderGapEvent × Option ReaderGapEvent)) :
    gapsFor ((rows.map (endWith edge)).map gapFromRow) other =
      gapsFor (rows.map gapFromRow) other := by
  induction rows with
  | nil => rfl
  | cons row rows ih =>
      simp only [List.map_cons, gapsFor, List.filter_cons] at ih ⊢
      rw [ih]
      by_cases hreader : row.1.readerId = other
      · have hsame : endWith edge row = row := by
          rw [endWith, if_neg (by rw [hreader]; exact hother.symm), Option.or_none]
        rw [hsame]
      · have hends : ¬ (gapFromRow (endWith edge row)).readerId = other := hreader
        have hrow : ¬ (gapFromRow row).readerId = other := hreader
        rw [if_neg (by simpa using hends), if_neg (by simpa using hrow)]

/-- A gap that an edge of one reader begins is none of another. -/
theorem gaps_for_begin_with {edge : ReaderGapEvent} {other : ReaderId}
    (hother : other ≠ edge.readerId) : gapsFor ((beginWith edge).map gapFromRow) other = [] := by
  rw [beginWith]
  split_ifs
  · exact gaps_for_cons_of_ne hother.symm []
  · rfl

/-- The gaps of another reader stay as they are under one more edge. -/
theorem gaps_for_history_concat {edge : ReaderGapEvent} {other : ReaderId}
    (hother : other ≠ edge.readerId) (events : List ReaderGapEvent) :
    gapsFor (history (events ++ [edge])) other = gapsFor (history events) other := by
  rw [history, episodes_concat, List.map_append, gapsFor, List.filter_append, ← gapsFor, ← gapsFor,
    gaps_for_end_with hother, gaps_for_begin_with hother, List.append_nil, history]

/-- The newest gaps of another reader stay as they are under one more edge, or the oldest of them
is left out. -/
theorem gaps_for_recent_concat {edge : ReaderGapEvent} {other : ReaderId}
    (hother : other ≠ edge.readerId) (events : List ReaderGapEvent) (limit : Nat) :
    gapsFor ((history (events ++ [edge])).reverse.take limit) other <+:
      gapsFor ((history events).reverse.take limit) other := by
  have hends : ∀ limit,
      gapsFor ((((episodes gapView events).map (endWith edge)).map gapFromRow).reverse.take limit)
        other = gapsFor ((history events).reverse.take limit) other := by
    intro limit
    simp only [history, ← List.map_reverse, ← List.map_take]
    exact gaps_for_end_with hother _
  rw [history, episodes_concat, List.map_append, List.reverse_append]
  by_cases hedge : edge.edge = .opened
  · rw [beginWith, if_pos hedge]
    cases limit with
    | zero => exact List.prefix_rfl
    | succ limit =>
        -- the gap that begins takes the place of the oldest one
        rw [List.map_singleton, List.reverse_singleton, List.singleton_append,
          List.take_succ_cons, gaps_for_cons_of_ne hother.symm, hends]
        exact (List.take_prefix_take_left (Nat.le_succ limit)).filter _
  · rw [beginWith, if_neg hedge, List.map_nil, List.reverse_nil, List.nil_append, hends]

theorem length_history_le (events : List ReaderGapEvent) (edge : ReaderGapEvent) :
    (history events).length ≤ (history (events ++ [edge])).length := by
  rw [history, history, episodes_concat, List.length_map, List.length_map, List.length_append,
    List.length_map]
  exact Nat.le_add_right _ _

theorem gaps_for_reverse (gaps : List ReaderGap) (readerId : ReaderId) :
    gapsFor gaps.reverse readerId = (gapsFor gaps readerId).reverse := List.filter_reverse ..

/-- A call leaves what the queries say about another reader. -/
theorem leaves_others (h : GapTable events) (call : GapCall) : LeavesOthers events call := by
  rcases h.step_cases call with hsame | ⟨edge, hwritten, hreader, htable⟩
  · exact ⟨fun _ _ => by rw [hsame], fun _ _ => by rw [hsame],
      fun _ _ _ => by rw [hsame], fun _ _ _ _ => by rw [hsame]⟩
  · have hbefore := queries_agree h.paired
    have hafter := queries_agree htable.paired
    constructor <;> rw [hwritten, ← hreader]
    · intro other hother
      rw [hbefore.open_for, hafter.open_for, gaps_for_history_concat hother]
    · intro other hother
      have hcomm : ∀ gaps : List ReaderGap, gapsFor (gaps.filter (·.isOpen)) other =
          (gapsFor gaps other).filter (·.isOpen) := fun gaps => by
        rw [gapsFor, gapsFor, List.filter_filter, List.filter_filter]
        simp only [Bool.and_comm]
      rw [hbefore.open_gaps, hafter.open_gaps, hcomm, hcomm, gaps_for_history_concat hother]
    · intro other hother limit
      rw [hbefore.recent, hafter.recent]
      exact gaps_for_recent_concat hother events limit
    · intro other hother limit hlimit
      rw [hafter.count] at hlimit
      have hbelow := le_trans (length_history_le events edge) hlimit
      rw [hbefore.recent, hafter.recent, List.take_of_length_le (by simpa using hlimit),
        List.take_of_length_le (by simpa using hbelow), gaps_for_reverse, gaps_for_reverse,
        gaps_for_history_concat hother]

/-- After any calls on an empty table: the edges of each reader alternate, at most one gap of a
reader is open, and a closed edge ends its reader's latest opened edge, once; every query says
what the history of edges says; an opening call writes nothing while a gap is open, and returns
it; a closing call writes nothing while none is; and a call changes no gap of another reader. -/
theorem gap_edges_alternate (calls : List GapCall) :
    EdgesAlternate (run gapStep [] calls) ∧ QueriesAgree (run gapStep [] calls) ∧
      (∀ failure readerId detection observed gap,
        openReaderGapFor (run gapStep [] calls) readerId = some gap →
          openReaderGap (run gapStep [] calls) failure readerId detection observed =
            (.ok gap, run gapStep [] calls)) ∧
      (∀ failure readerId observed, openReaderGapFor (run gapStep [] calls) readerId = none →
        closeReaderGap (run gapStep [] calls) failure readerId observed =
          (.ok none, run gapStep [] calls)) ∧
      ∀ call, LeavesOthers (run gapStep [] calls) call := by
  have htable := gap_table_run calls
  refine ⟨⟨edges_alternate htable.paired, ?_, ?_⟩, queries_agree htable.paired, ?_, ?_,
    leaves_others htable⟩
  · intro readerId
    rw [open_gaps_for]
    cases lastEdge gapView readerId (run gapStep [] calls) with
    | none => exact Nat.zero_le 1
    | some last => by_cases hedge : last.edge = .opened <;> simp [hedge]
  · intro before event after heq hedge
    exact closed_edge (heq ▸ htable.paired) hedge
  · intro failure readerId detection observed gap hopen
    exact open_reader_gap_of_open hopen failure detection observed
  · intro failure readerId observed hnone
    exact close_reader_gap_of_none hnone failure observed

/-- A reader going away at an instant. -/
def goesAway (readerId : ReaderId) : GapCall :=
  .openReaderGap none readerId .confirmed ⟨epoch, 0, none⟩

/-- A query for the newest gap no longer returns a reader's gap when another reader goes away. -/
theorem not_leaves_recent_capped :
    ¬ ∀ (calls : List GapCall) (call : GapCall) (other : ReaderId), other ≠ call.readerId →
      ∀ limit, gapsFor (recentReaderGaps (gapStep (run gapStep [] calls) call) limit) other =
        gapsFor (recentReaderGaps (run gapStep [] calls) limit) other := by
  intro h
  have hrecent := h [goesAway ⟨"start"⟩] (goesAway ⟨"finish"⟩) ⟨"start"⟩ (by decide) 1
  exact absurd hrecent (by decide)

end Splitforge.Storage
