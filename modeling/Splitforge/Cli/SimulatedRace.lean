import Splitforge.Cli.Simulate
import Splitforge.Storage.Reconcile

/-!
# What derivation makes of a simulated race

The rows a simulation stores fall into the bursts of the crossings it planned. Where a chip's
crossings at a checkpoint are far enough apart for the race's rules, each of them is credited, once
and in order, and no further from its planned instant than a burst reaches.
-/

namespace Splitforge.Cli

open Splitforge.Domain Splitforge.Engine Splitforge.Library Splitforge.Reader Splitforge.Simulator
open Splitforge.Storage hiding members step

variable {scenario : Scenario} {profile : BurstProfile} {crossing : Crossing}
variable {input : DerivationInput} {chip : ChipId} {checkpoint : CheckpointId}

/-! ## Bursts of rows -/

/-- What is beside lists one after another falls into parts that are beside them. -/
theorem exists_parts {Item Image : Type} {Beside : Item → Image → Prop} {parts : List (List Item)}
    {images : List Image} (h : List.Forall₂ Beside parts.flatten images) :
    ∃ imageParts, images = imageParts.flatten ∧
      List.Forall₂ (List.Forall₂ Beside) parts imageParts := by
  induction parts generalizing images with
  | nil =>
      cases h
      exact ⟨[], rfl, .nil⟩
  | cons part parts ih =>
      rw [List.flatten_cons] at h
      have hfront := List.forall₂_take_append images part parts.flatten h.flip
      have hback := List.forall₂_drop_append images part parts.flatten h.flip
      obtain ⟨imageParts, himages, hparts⟩ := ih hback.flip
      refine ⟨images.take part.length :: imageParts, ?_, .cons hfront.flip hparts⟩
      rw [List.flatten_cons, ← himages, List.take_append_drop]

/-- What is beside something that is beside others is beside them, list by list. -/
theorem beside_trans {First Second Third : Type} {Beside : First → Second → Prop}
    {Beside' : Second → Third → Prop} {Beside'' : First → Third → Prop}
    (h : ∀ first second third, Beside first second → Beside' second third →
      Beside'' first third)
    {firsts : List First} {seconds : List Second} {thirds : List Third}
    (hfirst : List.Forall₂ Beside firsts seconds) (hsecond : List.Forall₂ Beside' seconds thirds) :
    List.Forall₂ Beside'' firsts thirds := by
  induction hfirst generalizing thirds with
  | nil =>
      cases hsecond
      exact .nil
  | cons hbeside _ ih =>
      cases hsecond with
      | cons hbeside' hrest => exact .cons (h _ _ _ hbeside hbeside') (ih hrest)

/-- The rows the burst of a crossing becomes. -/
structure RowsOf (profile : BurstProfile) (crossing : Crossing) (rows : List StoredRawRead) :
    Prop where
  nonempty : rows ≠ []
  near : ∀ row ∈ rows, ∃ offset : Int, -profile.reachMs ≤ offset ∧ offset ≤ profile.reachMs ∧
    row.read.authoritativeTimestamp.nanos = (wholeMicros crossing.at).nanos + offset * 1000000
  steps : rows.IsChain fun first second => ∃ gap : Int, 0 ≤ gap ∧ gap ≤ profile.longestMs ∧
    second.read.authoritativeTimestamp.nanos =
      first.read.authoritativeTimestamp.nanos + gap * 1000000
  rssi : -32768 ≤ profile.weakest ∧ profile.strongest ≤ 32767 →
    ∀ row ∈ rows, ∃ rssiDbm ∈ row.read.rssiDbm, profile.weakest ≤ rssiDbm.toInt

/-- Whole milliseconds between two instants are kept in whole microseconds. -/
theorem whole_micros_add {first second : OffsetDateTime} {ms : Int}
    (h : second.nanos = first.nanos + ms * 1000000) :
    (wholeMicros second).nanos = (wholeMicros first).nanos + ms * 1000000 := by
  simp only [wholeMicros]
  omega

/-- The rows that keep a burst are rows of its crossing. -/
theorem rows_of_burst {burst : List ScriptedRead} {rows : List StoredRawRead}
    (h : BurstOf scenario crossing burst) (hkeeps : List.Forall₂ Keeps burst rows) :
    RowsOf scenario.profile crossing rows := by
  have htimes : rows.map (fun row => row.read.authoritativeTimestamp.nanos) =
      burst.map fun read => (wholeMicros read.at).nanos := by
    refine List.forall₂_eq_eq_eq ▸ List.forall₂_map_left_iff.mpr
      (List.forall₂_map_right_iff.mpr (hkeeps.flip.imp fun row read hkeep => ?_))
    rw [hkeep.instant]
  refine ⟨?_, fun row hrow => ?_, ?_, fun hfits row hrow => ?_⟩
  · rintro rfl
    cases hkeeps
    exact h.nonempty rfl
  · obtain ⟨read, hread, hkeep⟩ := exists_of_mem_beside hkeeps hrow
    obtain ⟨offset, hlower, hupper, heq⟩ := h.near read hread
    exact ⟨offset, hlower, hupper, by rw [hkeep.instant]; exact whole_micros_add heq⟩
  · have hsteps : (burst.map fun read => (wholeMicros read.at).nanos).IsChain fun first second =>
        ∃ gap : Int, 0 ≤ gap ∧ gap ≤ scenario.profile.longestMs ∧
          second = first + gap * 1000000 := by
      refine (List.isChain_map _).mpr (h.steps.imp fun first second hgap => ?_)
      obtain ⟨gap, hpositive, hlongest, heq⟩ := hgap
      exact ⟨gap, hpositive, hlongest, whole_micros_add heq⟩
    rw [← htimes] at hsteps
    exact (List.isChain_map _).mp hsteps
  · obtain ⟨read, hread, hkeep⟩ := exists_of_mem_beside hkeeps hrow
    rw [hkeep.rssi]
    exact (h.reads read hread).rssi hfits

/-! ## What the rules make of them -/

/-- A profile whose bursts the rules at a checkpoint take for one crossing each. -/
structure Tells (profile : BurstProfile) (input : DerivationInput) (checkpoint : CheckpointId) :
    Prop where
  window : profile.longestMs ≤ input.policy.minIntervalMsFor checkpoint
  floor : ∀ floorDbm, input.policy.selectionRuleFor checkpoint = .firstAboveRssi floorDbm →
    floorDbm.toInt ≤ profile.weakest ∧ -32768 ≤ profile.weakest ∧ profile.strongest ≤ 32767

/-- The milliseconds behind a crossing before which the rules do not credit another. -/
def apartMs (input : DerivationInput) (checkpoint : CheckpointId) : Int :=
  max (input.policy.minIntervalMsFor checkpoint) (input.policy.minLapMs.getD 0)

/-- Some read of a burst of rows is selected. -/
theorem select_rows (h : Tells profile input checkpoint) {rows : List StoredRawRead}
    (hrows : RowsOf profile crossing rows) :
    (select rows (input.policy.selectionRuleFor checkpoint)).isSome := by
  cases hrule : input.policy.selectionRuleFor checkpoint with
  | first =>
      rw [select, List.isSome_head?]
      exact hrows.nonempty
  | firstAboveRssi floorDbm =>
      obtain ⟨hfloor, hfits⟩ := h.floor floorDbm hrule
      obtain ⟨row, hrow⟩ := List.exists_mem_of_ne_nil rows hrows.nonempty
      obtain ⟨rssiDbm, hrssi, hweakest⟩ := hrows.rssi hfits row hrow
      rw [select, List.find?_isSome]
      refine ⟨row, hrow, ?_⟩
      rw [hrssi, Option.any_some]
      exact decide_eq_true (Int16.le_iff_toInt_le.mpr (le_trans hfloor hweakest))
  | peakRssi =>
      rw [select, Option.isSome_map, Option.isSome_iff_ne_none, Ne, max_by_key_eq_none,
        List.zipIdx_eq_nil_iff]
      exact hrows.nonempty

/-- The window at a checkpoint is no longer than what the rules ask for. -/
theorem window_at_le (input : DerivationInput) (checkpoint : CheckpointId) :
    (windowAt input checkpoint).nanos ≤ apartMs input checkpoint * 1000000 := by
  rw [windowAt, Duration.milliseconds, apartMs]
  unfold i64OrMax i64Max i64Min
  dsimp only
  split_ifs <;> omega

/-- A burst's neighbours are within the window. -/
theorem longest_le_window (h : Tells profile input checkpoint) :
    profile.longestMs * 1000000 ≤ (windowAt input checkpoint).nanos := by
  have hlongest : profile.longestMs ≤ i64Max := by
    have hmin := profile.minSpacingMs.toInt_lt
    have hmax := profile.maxSpacingMs.toInt_lt
    rw [BurstProfile.longestMs]
    simp only [i64Max]
    omega
  have hwindow := h.window
  rw [windowAt, Duration.milliseconds]
  unfold i64OrMax
  dsimp only
  split_ifs <;> omega

/-- How far apart planned crossings must be, in nanoseconds, for the rules to credit each: the
reach of two bursts, and less than a microsecond that is not stored, are lost from it. -/
def gapNeeded (profile : BurstProfile) (input : DerivationInput) (checkpoint : CheckpointId) :
    Int :=
  (apartMs input checkpoint + 2 * profile.reachMs) * 1000000 + 1000

/-- Rows of crossings that far apart are as far apart as the rules ask for. -/
theorem rows_apart {crossings : List Crossing} {rows : List (List StoredRawRead)}
    (h : List.Forall₂ (RowsOf profile) crossings rows)
    (hapart : crossings.Pairwise fun first second =>
      gapNeeded profile input checkpoint < second.at.nanos - first.at.nanos) :
    rows.Pairwise fun burst later => ∀ first ∈ burst, ∀ second ∈ later,
      apartMs input checkpoint * 1000000 <
        second.read.authoritativeTimestamp.nanos - first.read.authoritativeTimestamp.nanos := by
  induction h with
  | nil => exact .nil
  | @cons crossing burst crossings rows hburst hrows ih =>
      obtain ⟨hfirst, hrest⟩ := List.pairwise_cons.mp hapart
      refine List.pairwise_cons.mpr ⟨fun later hlater first hmem second hother => ?_, ih hrest⟩
      obtain ⟨crossing', hcrossing, hof⟩ := exists_of_mem_beside hrows hlater
      obtain ⟨offset, _, hupper, heq⟩ := hburst.near first hmem
      obtain ⟨offset', hlower, _, heq'⟩ := hof.near second hother
      have hgap := hfirst crossing' hcrossing
      rw [heq, heq']
      simp only [wholeMicros]
      rw [gapNeeded] at hgap
      omega

/-- The rows of crossings that are far enough apart are in order. -/
theorem rows_sorted {crossings : List Crossing} {rows : List (List StoredRawRead)}
    (h : List.Forall₂ (RowsOf profile) crossings rows)
    (hapart : crossings.Pairwise fun first second =>
      gapNeeded profile input checkpoint < second.at.nanos - first.at.nanos) :
    rows.flatten.Pairwise fun first second =>
      first.read.authoritativeTimestamp.nanos ≤ second.read.authoritativeTimestamp.nanos := by
  have htrans : IsTrans StoredRawRead fun first second =>
      first.read.authoritativeTimestamp.nanos ≤ second.read.authoritativeTimestamp.nanos :=
    ⟨fun _ _ _ => le_trans⟩
  have hnonneg : 0 ≤ apartMs input checkpoint := by
    rw [apartMs]
    omega
  refine List.pairwise_flatten.mpr ⟨fun burst hburst => ?_, ?_⟩
  · obtain ⟨crossing, _, hof⟩ := exists_of_mem_beside h hburst
    refine List.isChain_iff_pairwise.mp (hof.steps.imp fun first second hgap => ?_)
    obtain ⟨gap, hpositive, _, heq⟩ := hgap
    omega
  · refine (rows_apart h hapart).imp fun {burst later} hgap first hfirst second hsecond => ?_
    have hlt := hgap first hfirst second hsecond
    omega

/-- The rows of crossings that are far enough apart are the runs the window cuts. -/
theorem runs_of_rows (h : Tells profile input checkpoint) {crossings : List Crossing}
    {rows : List (List StoredRawRead)} (hrows : List.Forall₂ (RowsOf profile) crossings rows)
    (hapart : crossings.Pairwise fun first second =>
      gapNeeded profile input checkpoint < second.at.nanos - first.at.nanos) :
    MaximalRuns (windowAt input checkpoint) rows.flatten rows where
  together := rfl
  nonempty burst hburst := by
    obtain ⟨crossing, _, hof⟩ := exists_of_mem_beside hrows hburst
    exact hof.nonempty
  within burst hburst := by
    obtain ⟨crossing, _, hof⟩ := exists_of_mem_beside hrows hburst
    refine hof.steps.imp fun first second hgap => ?_
    obtain ⟨gap, _, hlongest, heq⟩ := hgap
    have hwindow := longest_le_window h
    show second.read.authoritativeTimestamp.nanos - first.read.authoritativeTimestamp.nanos ≤ _
    omega
  apart := by
    refine List.Pairwise.isChain ((rows_apart hrows hapart).imp fun {burst later} hgap => ?_)
    intro last hlast first hfirst
    have hlt := hgap last (List.mem_of_getLast? hlast) first (List.mem_of_head? hfirst)
    have hwindow := window_at_le input checkpoint
    show _ < first.read.authoritativeTimestamp.nanos - last.read.authoritativeTimestamp.nanos
    omega

/-- Rows as far apart as the rules ask for are no lap that is too fast. -/
theorem unhurried_of_apart {first second : StoredRawRead}
    (h : apartMs input checkpoint * 1000000 <
      second.read.authoritativeTimestamp.nanos - first.read.authoritativeTimestamp.nanos) :
    Unhurried input first.read.authoritativeTimestamp second := by
  intro minLapMs hlap
  have hle : (minLapMs : Int) ≤ apartMs input checkpoint := by
    rw [apartMs, hlap, Option.getD_some]
    omega
  rw [Duration.wholeMilliseconds, OffsetDateTime.sub_nanos, Int.tdiv_eq_ediv_of_nonneg (by omega)]
  omega

/-- A crossing that stands for a planned one: it is no further from the planned instant, in whole
microseconds, than a burst reaches. -/
def Recovers (profile : BurstProfile) (crossing : Crossing) (accepted : AcceptedRead) : Prop :=
  ∃ offset : Int, -profile.reachMs ≤ offset ∧ offset ≤ profile.reachMs ∧
    accepted.at.nanos = (wholeMicros crossing.at).nanos + offset * 1000000

/-- Where the reads of a chip at a checkpoint are the rows of crossings that are far enough apart,
each of those is credited, once and in order. -/
theorem accepted_of_rows (newV5 : Uuid → String → Uuid) (h : Tells profile input checkpoint)
    {crossings : List Crossing} {rows : List (List StoredRawRead)}
    (hrows : List.Forall₂ (RowsOf profile) crossings rows)
    (hapart : crossings.Pairwise fun first second =>
      gapNeeded profile input checkpoint < second.at.nanos - first.at.nanos)
    (hplaced : inOrder (itemsWith (placeOf input) (toLex (chip, checkpoint)) input.reads) =
      rows.flatten) :
    List.Forall₂ (Recovers profile) crossings
      ((derive newV5 input).accepted.filter fun crossing =>
        crossing.chip = chip ∧ crossing.checkpoint = checkpoint) := by
  have haccepted := accepted_of_bursts newV5 (hplaced ▸ runs_of_rows h hrows hapart)
    (fun burst hburst => by
      obtain ⟨crossing, _, hof⟩ := exists_of_mem_beside hrows hburst
      exact select_rows h hof)
    ((rows_apart hrows hapart).imp fun {burst later} hgap first hfirst second hsecond =>
      unhurried_of_apart (hgap first hfirst second hsecond))
  refine beside_trans (fun crossing burst accepted hof hcredited => ?_) hrows haccepted
  obtain ⟨chosen, hchosen, rfl⟩ := hcredited
  exact hof.near chosen (mem_of_select hchosen)

/-! ## Runs -/

/-- Whether a crossing of the scenario's reader is at a checkpoint. -/
def coveredBy (input : DerivationInput) (reader : ReaderId) (chip : ChipId)
    (checkpoint : CheckpointId) (chip' : ChipId) (antenna : Option UInt16) : Bool :=
  chip' = chip && input.antennas.resolve reader antenna = some checkpoint

/-- The rows at a place that keep a script are the rows of the crossings planned there. -/
theorem placed_rows {script : List ScriptedRead} {old rows : List StoredRawRead}
    {bursts : List (List ScriptedRead)}
    (hkeeps : List.Forall₂ Keeps script rows)
    (hsource : ∀ read ∈ script, read.message.source = scenario.reader)
    (hold : ∀ row ∈ old, placeOf input row ≠ some (toLex (chip, checkpoint)))
    (hbursts : script.filter (fun read => coveredBy input scenario.reader chip checkpoint
      read.message.chip read.message.antenna) = bursts.flatten) :
    ∃ rowBursts, List.Forall₂ (List.Forall₂ Keeps) bursts rowBursts ∧
      itemsWith (placeOf input) (toLex (chip, checkpoint)) (old ++ rows) = rowBursts.flatten := by
  have hboth := (List.forall₂_and_left script rows).mpr ⟨hsource, hkeeps⟩
  have hfiltered : List.Forall₂
      (fun read row => read.message.source = scenario.reader ∧ Keeps read row)
      (script.filter fun read => coveredBy input scenario.reader chip checkpoint
        read.message.chip read.message.antenna)
      (itemsWith (placeOf input) (toLex (chip, checkpoint)) rows) := by
    refine List.rel_filter (fun read row hread => ?_) hboth
    obtain ⟨hreader, hkeep⟩ := hread
    have hplaced : coveredBy input scenario.reader chip checkpoint read.message.chip
        read.message.antenna = true ↔ placeOf input row = some (toLex (chip, checkpoint)) := by
      rw [placeOf, hkeep.source, hkeep.antenna, hkeep.chip, hreader]
      simp only [coveredBy, Bool.and_eq_true, decide_eq_true_eq, Option.map_eq_some_iff]
      constructor
      · intro hcovered
        exact ⟨checkpoint, hcovered.2, by rw [hcovered.1]⟩
      · intro hmapped
        obtain ⟨covered, hcovered, heq⟩ := hmapped
        obtain ⟨hchip, hcheckpoint⟩ := Prod.ext_iff.mp (toLex.injective heq)
        exact ⟨hchip, by rw [hcovered]; exact congrArg some hcheckpoint⟩
    simpa using hplaced
  rw [hbursts] at hfiltered
  obtain ⟨rowBursts, hrows, hparts⟩ := exists_parts hfiltered
  refine ⟨rowBursts, hparts.imp fun burst part hbeside => hbeside.imp fun _ _ hread => hread.2, ?_⟩
  have hnone : itemsWith (placeOf input) (toLex (chip, checkpoint)) old = [] :=
    List.eq_nil_iff_forall_not_mem.mpr fun row hrow =>
      hold row (mem_items_with.mp hrow).1 (mem_items_with.mp hrow).2
  rw [itemsWith, List.filter_append]
  show itemsWith _ _ old ++ itemsWith _ _ rows = _
  rw [hnone, List.nil_append, hrows]

/-- Rows of a well-formed table that stand in order of time are in order. -/
theorem in_order_eq {table rows : List StoredRawRead} (h : WellFormed table)
    (hrows : rows.Sublist table)
    (hsorted : rows.Pairwise fun first second =>
      first.read.authoritativeTimestamp.nanos ≤ second.read.authoritativeTimestamp.nanos) :
    inOrder rows = rows := by
  have hboth := hsorted.and (h.seqs_increase.sublist hrows)
  refine List.Pairwise.insertionSort_eq (hboth.imp fun {first second} hle => ?_)
  refine Prod.Lex.toLex_le_toLex.mpr ?_
  rcases lt_or_eq_of_le hle.1 with hlt | heq
  · exact Or.inl hlt
  · exact Or.inr ⟨OffsetDateTime.ext heq, hle.2.le⟩

/-- What a fixture's reader is built as. -/
theorem scripted_reader_ok {debug : String → String} {fixtures : List FixtureEvent}
    {loaded : EventConfig} {slug : String} {seed : UInt64} {scripted : ScriptedReader}
    (h : scriptedReader debug fixtures loaded slug seed = .ok scripted) :
    scripted.scenario.profile = .standard ∧ scripted.ingest.maxOffsetMs = defaultMaxOffsetMs := by
  rw [scriptedReader] at h
  split at h
  · cases h
  · split at h
    · cases h
    · split at h
      · cases h
      · cases h
        exact ⟨rfl, rfl⟩

/-- A simulation that can run to its end: on a journal some writer has left, of a reader that is
believed, with a storage that does not fail, identifiers that are new, and instants that the
transport can carry. -/
structure Runnable (surroundings : Surroundings) (history : List Event) (journal : SqliteJournal)
    (disk : Disk) (scripted : ScriptedReader) : Prop where
  reached : run (Storage.step surroundings.crates) World.empty history = ⟨disk, some journal⟩
  trust : scripted.ingest.trust ≠ .untrusted
  calm : Calm surroundings.envs
  ids : Distinct surroundings.ids
    (scripted.scenario.crossings.length * BurstProfile.standard.mostReads)
  fresh : ∀ number,
    number < scripted.scenario.crossings.length * BurstProfile.standard.mostReads →
      surroundings.ids number ∉ storedIds disk.database.rawReads
  instants : ∀ crossing ∈ scripted.scenario.crossings,
    minNanos ≤ crossing.at.nanos - BurstProfile.standard.reachMs * 1000000 - hour ∧
      crossing.at.nanos + BurstProfile.standard.reachMs * 1000000 + slowest ≤ maxNanos
  spread : ∀ first ∈ scripted.scenario.crossings, ∀ second ∈ scripted.scenario.crossings,
    second.at.nanos - first.at.nanos + 2 * BurstProfile.standard.reachMs * 1000000 + slowest +
      hour ≤ i64Max

/-- What a report says of a simulation that stored some rows for its script. -/
structure Reports (report : SimulationReport) (script : List ScriptedRead)
    (rows table : List StoredRawRead) : Prop where
  scripted : report.readsScripted = script.length
  received : report.readsReceived = script.length
  persisted : report.readsPersisted = script.length
  total : report.journalTotal = table.length
  firstSeq : report.firstSeq = rows.head?.map (·.seq)
  lastSeq : report.lastSeq = rows.getLast?.map (·.seq)

/-- A simulation that can run to its end does: every scripted read is stored once, in order, and
reported. -/
theorem into_journal_stores {surroundings : Surroundings} {history : List Event}
    {loaded : EventConfig} {slug : String} {seed : UInt64} {journal : SqliteJournal} {disk : Disk}
    {scripted : ScriptedReader}
    (hscripted : scriptedReader surroundings.debug surroundings.fixtures loaded slug seed =
      .ok scripted)
    (h : Runnable surroundings history journal disk scripted) {script : List ScriptedRead}
    (hscript : scripted.scenario.script = some script)
    (hlength : script.length ≤
      scripted.scenario.crossings.length * scripted.scenario.profile.mostReads)
    (hnear : ∀ read ∈ script, ∃ crossing ∈ scripted.scenario.crossings,
      ReadOf scripted.scenario crossing read ∧ ∃ offset : Int,
        -scripted.scenario.profile.reachMs ≤ offset ∧ offset ≤ scripted.scenario.profile.reachMs ∧
        read.at.nanos = crossing.at.nanos + offset * 1000000) :
    ∃ report journal' disk' rows, intoJournal surroundings loaded slug seed journal disk =
        .ok (report, journal', disk') ∧
      disk'.database.rawReads = disk.database.rawReads ++ rows ∧
      WellFormed disk'.database.rawReads ∧ List.Forall₂ Keeps script rows ∧
      Reports report script rows disk'.database.rawReads := by
  obtain ⟨hprofile, hoffset⟩ := scripted_reader_ok hscripted
  rw [hprofile] at hnear hlength
  have hlocated := (run_ahead surroundings.crates history).1
  rw [h.reached] at hlocated
  obtain ⟨sidecar, hsidecar, _⟩ := hlocated.journal journal rfl
  have hplayable : ∀ read ∈ script, Playable read := by
    intro read hread
    obtain ⟨crossing, hcrossing, hof, offset, hlower, hupper, heq⟩ := hnear read hread
    obtain ⟨hleast, hgreatest⟩ := h.instants crossing hcrossing
    exact ⟨hof.timestamp, by rw [heq]; omega, by rw [heq]; omega⟩
  have hspread : ∀ first ∈ script, ∀ second ∈ script,
      Counts (first.at.nanos - hour) second.at := by
    intro first hfirst second hsecond
    obtain ⟨crossing, hcrossing, _, offset, hlower, _, heq⟩ := hnear first hfirst
    obtain ⟨crossing', hcrossing', _, offset', _, hupper, heq'⟩ := hnear second hsecond
    have hfits := h.spread crossing hcrossing crossing' hcrossing'
    rw [Counts, heq, heq']
    omega
  obtain ⟨drain', rows, hdrained, htook⟩ := @script_taken surroundings.crates surroundings.ids
    surroundings.envs scripted.ingest (loaded.config.gunTime.getD raceStart)
    ⟨.new (seed ^^^ 0xA5A5A5A5A5A5A5A5), 0, 0, none, none, journal, disk⟩ _ h.calm h.ids
    ⟨h.trust, hoffset⟩ script hplayable hspread
    ⟨by rw [hsidecar]; rfl, ⟨rfl, rfl⟩, hlocated.rows, fun number _ => h.fresh number⟩
    (by rw [Nat.zero_add]; exact hlength) (fun boot hboot => by cases hboot)
  have hevents : (eventsOf script).foldlM (Drain.step surroundings.crates surroundings.ids
      surroundings.envs scripted.ingest (loaded.config.gunTime.getD raceStart))
      ⟨.new (seed ^^^ 0xA5A5A5A5A5A5A5A5), 0, 0, none, none, journal, disk⟩ = .ok drain' := by
    rw [eventsOf, List.foldlM_cons]
    exact hdrained
  refine ⟨⟨slug, loaded.config.race.name, scripted.reader, seed, scripted.plannedCrossings,
    script.length, drain'.readsReceived, drain'.readsPersisted,
    drain'.disk.database.rawReads.length, drain'.firstSeq, drain'.lastSeq⟩, drain'.journal,
    drain'.disk, rows, ?_, htook.table, htook.going.rows, htook.keeps, ?_⟩
  · simp only [intoJournal, hscripted, hscript, hevents]
  · refine ⟨rfl, ?_, ?_, rfl, htook.firstSeq, ?_⟩
    · rw [htook.received, Nat.zero_add]
    · rw [htook.persisted, Nat.zero_add]
    · rw [htook.lastSeq]
      cases rows.getLast? <;> rfl

/-- The crossings of a scenario that can run are in range. -/
theorem Runnable.in_range {surroundings : Surroundings} {history : List Event}
    {journal : SqliteJournal} {disk : Disk} {scripted : ScriptedReader}
    (h : Runnable surroundings history journal disk scripted)
    (hprofile : scripted.scenario.profile = .standard) : InRange scripted.scenario where
  spacing := by
    rw [hprofile]
    decide
  instants crossing hcrossing := by
    obtain ⟨hleast, hgreatest⟩ := h.instants crossing hcrossing
    rw [hprofile]
    simp only [hour] at hleast
    simp only [slowest] at hgreatest
    omega

/-- A fixture whose runner crosses the gate twice, a minute apart. -/
def twoLaps : FixtureEvent :=
  ⟨"two-laps", [⟨⟨"E28011"⟩, ⟨"gate"⟩, none, second 10⟩, ⟨⟨"E28011"⟩, ⟨"gate"⟩, none, second 70⟩]⟩

/-- A race whose gate it is. -/
def twoLapsRace : EventConfig where
  event := "Day"
  config :=
    { race := ⟨⟨.fromU128 4⟩, "Two laps", none, 2⟩
      checkpoints := []
      participants := []
      assignments := []
      antennas := sample.antennas
      policy := ⟨5000, .first, none, ∅⟩
      sessions := []
      distinct := List.nodup_nil }
  readers := [⟨⟨"gate"⟩, "Gate", none, .auto⟩]
  startMode := .gun
  sessions := []
  recorded := rfl

/-- Identifiers counted up, and a storage that does not fail. -/
def quiet : Surroundings :=
  ⟨serde, id, [twoLaps], fun number => ⟨.fromU128 number⟩,
    fun _ => ⟨epoch, none, none, ⟨epoch, 0, none⟩⟩⟩

/-- The reader of the fixture, as the race has it. -/
def twoLapsReader : ScriptedReader :=
  ⟨scenarioOf ⟨"gate"⟩ 7 twoLaps.crossings, ⟨.auto, defaultMaxOffsetMs⟩, ⟨"gate"⟩, 2⟩

/-- What is derived from some reads of the race. -/
def twoLapsInput (reads : List StoredRawRead) : DerivationInput :=
  ⟨reads, twoLapsRace.config.policy, ⟨∅⟩, twoLapsRace.config.antennas, [], none⟩

theorem two_laps_runnable :
    Runnable quiet [.openRecovering "reads.sfj" calm] (.opened "reads.sfj" 0) ⟨[], ⟨[], [], []⟩⟩
      twoLapsReader where
  reached := by rfl
  trust := by decide
  calm number := ⟨rfl, rfl⟩
  ids first second hlt hlimit heq := by
    have hvalue := congrArg (fun id : RawReadId => id.uuid.value.val) heq
    have hlimit : second < 2 * 46 := hlimit
    simp only [quiet, Uuid.fromU128, Fin.ofNat] at hvalue
    omega
  fresh number _ := List.not_mem_nil
  instants := by decide
  spread := by decide

theorem two_laps_tell (reads : List StoredRawRead) :
    Tells .standard (twoLapsInput reads) ⟨.fromU128 7⟩ where
  window := by
    show BurstProfile.standard.longestMs ≤ ((twoLapsInput []).policy.minIntervalMsFor _ : Nat)
    decide
  floor floorDbm hrule := by cases hrule

theorem two_laps_scripted :
    scriptedReader quiet.debug quiet.fixtures twoLapsRace "two-laps" 7 = .ok twoLapsReader := rfl

/-- The gate covers both laps. -/
theorem two_laps_covered (reads : List StoredRawRead) :
    coveredBy (twoLapsInput reads) twoLapsReader.scenario.reader ⟨"E28011"⟩ ⟨.fromU128 7⟩
      ⟨"E28011"⟩ none = true := by
  show coveredBy (twoLapsInput []) _ _ _ _ _ = true
  decide +kernel

end Splitforge.Cli
