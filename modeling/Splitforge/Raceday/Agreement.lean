import Splitforge.Raceday.Recorded

/-!
# Agreement

What the shipper recorded of an item is what RaceDay Connect holds of it, unless a request about
the item is outstanding: it may have been taken, and nothing is recorded of it. So a pass that ends
`Done` leaves the two in agreement except where an item has come back to what is recorded while
RaceDay Connect took something else in between.
-/

namespace Splitforge.Raceday

open Std (ExtTreeMap)
open Splitforge.Domain Splitforge.Library

variable {Metres : Type}

/-! ## What is recorded is held -/

/-- Where nothing is outstanding about an item, and it was not refused last, RaceDay Connect holds
what is recorded. -/
structure Sound (box : Box Metres) : Prop where
  complete : AllComplete box.ledger
  course : outstanding .course box.ledger = false → ∀ json,
    box.db.sentManifest = some (json, true) → (server box.ledger).manifest = some json
  runner : ∀ runner, outstanding (.runner runner) box.ledger = false →
    lastRefused (.runner runner) box.ledger = false →
      (server box.ledger).crossingsOf runner = crossingsOf box.db.sentCrossings runner

theorem last_refused_cons_of_not_about {item : Item} {entry : Entry} {ledger : List Entry}
    (h : entry.about item = false) :
    lastRefused item (entry :: ledger) = lastRefused item ledger := by
  unfold lastRefused
  rw [newest_cons_of_not_about h]

theorem Kept.last_refused {item : Item} {earlier ledger : List Entry}
    (h : Kept item earlier ledger) : lastRefused item ledger = lastRefused item earlier := by
  unfold lastRefused
  rw [h.newest]

variable {box box' : Box Metres}

/-- A statement that records nothing of an item changes nothing. -/
theorem Sound.of_eq (h : Sound box) (hmanifest : box'.db.sentManifest = box.db.sentManifest)
    (hcrossings : box'.db.sentCrossings = box.db.sentCrossings)
    (hledger : box'.ledger = box.ledger) : Sound box' := by
  constructor
  · rw [hledger]
    exact h.complete
  · rw [hledger, hmanifest]
    exact h.course
  · rw [hledger, hcrossings]
    exact h.runner

/-- A request that was not refused is outstanding. -/
theorem Sound.of_ask (h : Sound box) {ask : Ask} (hcomplete : ask.document.Complete) :
    Sound (⟨box.db, .asked ask :: box.ledger⟩ : Box Metres) := by
  have hall : AllComplete (.asked ask :: box.ledger) := by
    intro other hother
    rcases List.mem_cons.mp hother with heq | hother
    · cases heq
      exact hcomplete
    · exact h.complete other hother
  refine ⟨hall, fun hsettled json hrecord => ?_, fun runner hsettled haccepted => ?_⟩
  · show (server (.asked ask :: box.ledger)).manifest = some json
    change outstanding .course (.asked ask :: box.ledger) = false at hsettled
    cases hnames : ask.document.names .course with
    | false =>
        have hother : (Entry.asked ask).about .course = false := hnames
        rw [outstanding_cons_of_not_about hother] at hsettled
        rw [manifest_cons_of_not_about hother]
        exact h.course hsettled json hrecord
    | true =>
        rw [outstanding_asked, hnames, Bool.true_and, Bool.or_eq_false_iff,
          decide_eq_false_iff_not, not_not] at hsettled
        -- a refused course was not taken
        rw [server_asked, ask.exchange.not_taken (.inl hsettled.1), if_neg Bool.false_ne_true]
        exact h.course hsettled.2 json hrecord
  · show (server (.asked ask :: box.ledger)).crossingsOf runner = _
    change outstanding (.runner runner) (.asked ask :: box.ledger) = false at hsettled
    change lastRefused (.runner runner) (.asked ask :: box.ledger) = false at haccepted
    cases hnames : ask.document.names (.runner runner) with
    | false =>
        have hother : (Entry.asked ask).about (.runner runner) = false := hnames
        rw [outstanding_cons_of_not_about hother] at hsettled
        rw [last_refused_cons_of_not_about hother] at haccepted
        rw [crossings_cons_of_not_about hall hother]
        exact h.runner runner hsettled haccepted
    | true =>
        rw [outstanding_asked, hnames, Bool.true_and, Bool.or_eq_false_iff,
          decide_eq_false_iff_not, not_not] at hsettled
        rw [lastRefused, newest_asked, hnames, if_pos rfl, Option.any_some,
          decide_eq_false_iff_not] at haccepted
        exact absurd hsettled.1 haccepted

/-- The course is recorded as the newest request about it was answered. -/
theorem Sound.of_record_manifest (h : Sound box) {json : String} {delivered : Bool} {ask : Ask}
    (hnewest : newest .course box.ledger = some ask) (hdocument : ask.document = .manifest json)
    (houtcome : ask.exchange.outcome = if delivered then .delivered else .refused) :
    Sound (⟨{ box.db with sentManifest := some (json, delivered) },
      .recorded .course :: box.ledger⟩ : Box Metres) := by
  constructor
  · intro other hother
    exact h.complete other ((List.mem_cons.mp hother).resolve_left (by intro heq; cases heq))
  · intro _ json' hrecord
    cases hrecord
    exact manifest_of_newest hnewest hdocument houtcome
  · intro runner hsettled haccepted
    have hother : (Entry.recorded .course).about (.runner runner) = false := rfl
    change outstanding (.runner runner) (.recorded .course :: box.ledger) = false at hsettled
    change lastRefused (.runner runner) (.recorded .course :: box.ledger) = false at haccepted
    rw [outstanding_cons_of_not_about hother] at hsettled
    rw [last_refused_cons_of_not_about hother] at haccepted
    exact h.runner runner hsettled haccepted

/-- A runner is recorded as the newest batch that named the runner. -/
theorem Sound.of_record_runner (h : Sound box) {runner : RunnerRef}
    {crossings : Option (List Crossing)} {ask : Ask} {batch : CrossingsBatch} {db : ShipDb Metres}
    (hnewest : newest (.runner runner) box.ledger = some ask)
    (hdocument : ask.document = .crossings batch)
    (houtcome : ask.exchange.outcome = .delivered ∨ ask.exchange.outcome = .refused)
    (hcrossings : batch.crossings.filter (fun crossing => runnerOf crossing = runner) =
      crossings.getD [])
    (hdb : box.db.execute (.recordRunner runner crossings) = some db) :
    Sound (⟨db, .recorded (.runner runner) :: box.ledger⟩ : Box Metres) := by
  have hmanifest : db.sentManifest = box.db.sentManifest := by
    cases hdb
    rfl
  refine ⟨?_, ?_, ?_⟩
  · intro other hother
    exact h.complete other ((List.mem_cons.mp hother).resolve_left (by intro heq; cases heq))
  · intro hsettled json hrecord
    have hother : (Entry.recorded (.runner runner)).about .course = false := rfl
    change outstanding .course (.recorded (.runner runner) :: box.ledger) = false at hsettled
    rw [outstanding_cons_of_not_about hother] at hsettled
    exact h.course hsettled json (hmanifest.symm.trans hrecord)
  · intro other hsettled haccepted
    change outstanding (.runner other) (.recorded (.runner runner) :: box.ledger) = false
      at hsettled
    change lastRefused (.runner other) box.ledger = false at haccepted
    show (server box.ledger).crossingsOf other = crossingsOf db.sentCrossings other
    unfold crossingsOf
    rw [get_record_runner hdb]
    by_cases heq : runner = other
    · subst heq
      rw [if_pos rfl, ← hcrossings]
      refine crossings_of_newest h.complete hnewest hdocument (houtcome.resolve_right fun hno => ?_)
      rw [lastRefused, hnewest, Option.any_some, decide_eq_false_iff_not] at haccepted
      exact haccepted hno
    · rw [if_neg heq]
      rw [outstanding_recorded, if_neg fun h => heq (Item.runner.inj h)] at hsettled
      exact h.runner other hsettled haccepted

/-! ## Agreement -/

/-- RaceDay Connect holds the course, and the crossings of every runner whose last batch was not
refused. -/
def Agrees (ledger : List Entry) (json : String) (now : ByRunner) : Prop :=
  (server ledger).manifest = some json ∧
    ∀ runner, lastRefused (.runner runner) ledger = false →
      (server ledger).crossingsOf runner = crossingsOf now runner

/-- Where a request about an item is outstanding, and the item is to be what is recorded of it,
RaceDay Connect holds that. -/
def RecordsHeld (box : Box Metres) (json : String) (now : ByRunner) : Prop :=
  (outstanding .course box.ledger = true → box.db.sentManifest = some (json, true) →
      (server box.ledger).manifest = some json) ∧
    ∀ runner, outstanding (.runner runner) box.ledger = true →
      lastRefused (.runner runner) box.ledger = false →
        box.db.sentCrossings[runner]? = now[runner]? →
          (server box.ledger).crossingsOf runner = crossingsOf now runner

theorem course_agrees_iff {start : Box Metres} {json : String} (hstart : Sound start)
    (hbox : Sound box) (hcourse : CourseRecorded start json box) :
    (server box.ledger).manifest = some json ↔
      (outstanding .course start.ledger = true → start.db.sentManifest = some (json, true) →
        (server start.ledger).manifest = some json) := by
  by_cases hsame : start.db.sentManifest = some (json, true)
  · rw [(hcourse.kept hsame).manifest]
    constructor
    · intro hheld _ _
      exact hheld
    · intro hheld
      cases houtstanding : outstanding .course start.ledger with
      | true => exact hheld houtstanding hsame
      | false => exact hstart.course houtstanding json hsame
  · constructor
    · intro _ _ hrecord
      exact absurd hrecord hsame
    · intro _
      exact hbox.course (hcourse.settled hsame) json hcourse.record

theorem runner_agrees_iff {start : Box Metres} {now : ByRunner} {runner : RunnerRef}
    (hstart : Sound start) (hbox : Sound box) (hrunners : RunnersRecorded start now [] [] box) :
    (lastRefused (.runner runner) box.ledger = false →
        (server box.ledger).crossingsOf runner = crossingsOf now runner) ↔
      (outstanding (.runner runner) start.ledger = true →
        lastRefused (.runner runner) start.ledger = false →
          start.db.sentCrossings[runner]? = now[runner]? →
            (server start.ledger).crossingsOf runner = crossingsOf now runner) := by
  by_cases hsame : start.db.sentCrossings[runner]? = now[runner]?
  · obtain ⟨hkept, _⟩ := hrunners.kept runner (.inl hsame)
    rw [hkept.last_refused, hkept.crossings_of hbox.complete]
    constructor
    · intro hheld _ haccepted _
      exact hheld haccepted
    · intro hheld haccepted
      cases houtstanding : outstanding (.runner runner) start.ledger with
      | true => exact hheld houtstanding haccepted hsame
      | false =>
          rw [hstart.runner runner houtstanding haccepted, crossingsOf, hsame]
          rfl
  · constructor
    · intro _ _ _ hrecord
      exact absurd hrecord hsame
    · intro _ haccepted
      obtain ⟨hrecord, hsettled⟩ :=
        hrunners.settled runner hsame List.not_mem_nil List.not_mem_nil
      rw [hbox.runner runner hsettled haccepted, crossingsOf, hrecord]
      rfl

/-! ## Runs -/

section Runs

variable [Meters Metres] {crates : Crates Metres} {event : Event}

/-- What is justified keeps what is recorded held. -/
theorem Sound.perform (h : Sound box) {op : Op Metres} {exchange : Exchange} {answer : op.Answer}
    {pairing : Pairing} (hjustified : Justified crates event pairing box.ledger op)
    (hperform : box.perform op exchange = some (answer, box')) : Sound box' := by
  cases op with
  | select query =>
      cases hperform
      exact h
  | send asked document =>
      cases hperform
      exact h.of_ask hjustified.2
  | execute statement =>
      obtain ⟨db, hdb, rfl⟩ := Box.of_execute hperform
      cases statement with
      | recordManifest json delivered =>
          obtain ⟨ask, hnewest, _, hdocument, houtcome⟩ := hjustified
          cases hdb
          exact h.of_record_manifest hnewest hdocument houtcome
      | recordRunner runner crossings =>
          obtain ⟨ask, batch, hnewest, _, hdocument, houtcome, hcrossings⟩ := hjustified
          exact h.of_record_runner hnewest hdocument houtcome hcrossings hdb
      | recordRevision race number outcome =>
          rw [ShipDb.of_record_revision hdb]
          exact h.of_eq rfl rfl rfl
      | unpair | note problem | finish problem =>
          cases hdb
          exact h.of_eq rfl rfl rfl
      | storePairing row => cases hjustified
      | clearManifest => cases hjustified
      | clearCrossings => cases hjustified
      | clearRevisions => cases hjustified
      | clearDelivery => cases hjustified
      | recordCourse course => cases hjustified

/-- A turn does nothing but what is justified under some pairing. -/
theorem justified_turn (crates : Crates Metres) (event : Event) (box : Box Metres) :
    (turn crates event).Meets Box.perform
    (fun box op => ∃ pairing, Justified crates event pairing box.ledger op) (fun _ _ => True)
    box := by
  refine ⟨⟨⟨"", "", ""⟩, trivial⟩, fun exchange paired box' hperform => ?_⟩
  cases paired with
  | none => exact ⟨⟨⟨"", "", ""⟩, trivial⟩, fun _ _ _ _ => trivial⟩
  | some pairing =>
      have hpass : (pass crates pairing event).Meets Box.perform
          (fun box => Justified crates event pairing box.ledger) (fun _ _ => True) box' :=
        Program.Meets.refine Box.ledger justified_pass
          fun box op exchange answer box' hperform => ⟨_, told_of_perform hperform⟩
      exact hpass.mono (fun box op hop => ⟨pairing, hop⟩) fun _ _ _ => trivial

/-- What can happen to a box that stays paired: the operator records a course, or the shipper takes
a turn, which ends where the answers do. -/
inductive Move (Metres : Type) where
  | course (course : Course Metres)
  | turn (event : Event) (exchanges : List Exchange)

/-- One thing that happens. -/
def Box.move (crates : Crates Metres) (box : Box Metres) : Move Metres → Box Metres
  | .course course => { box with db := (box.db.execute (.recordCourse course)).getD box.db }
  | .turn event exchanges => ((turn crates event).run Box.perform box exchanges).2

/-- What a box is after everything that happened to it. -/
def Box.after (crates : Crates Metres) (box : Box Metres) (moves : List (Move Metres)) :
    Box Metres :=
  moves.foldl (Box.move crates) box

omit [Meters Metres] in
/-- A box that has just been paired, with a race that holds nothing. -/
def Box.paired (row : PairingRow) (courses : ExtTreeMap RaceId (Course Metres)) : Box Metres where
  db := {
    pairing := some row
    courses
    sentManifest := none
    sentCrossings := ∅
    sentRevisions := ∅
    unpaired := false
    lastError := none }
  ledger := []

omit [Meters Metres] in
theorem sound_paired (row : PairingRow) (courses : ExtTreeMap RaceId (Course Metres)) :
    Sound (Box.paired row courses) := by
  constructor
  · intro ask hask
    cases hask
  · intro _ json hrecord
    cases hrecord
  · intro runner _ _
    show [] = crossingsOf ∅ runner
    rw [crossingsOf, ExtTreeMap.getElem?_empty]
    rfl

/-- What is recorded is held after everything that can happen. -/
theorem sound_after (row : PairingRow) (courses : ExtTreeMap RaceId (Course Metres))
    (moves : List (Move Metres)) : Sound ((Box.paired row courses).after crates moves) := by
  unfold Box.after
  have hkeep : ∀ box : Box Metres, Sound box → Sound (moves.foldl (Box.move crates) box) := by
    intro box hbox
    induction moves generalizing box with
    | nil => exact hbox
    | cons move moves ih =>
        refine ih _ ?_
        cases move with
        | course course => exact hbox.of_eq rfl rfl rfl
        | turn event exchanges =>
            exact (justified_turn crates event box).keep_run Sound hbox
              (fun box op exchange answer box' hbox hjustified hperform =>
                hbox.perform hjustified.choose_spec hperform) exchanges
  exact hkeep _ (sound_paired row courses)

/-! ## Passes that are done -/

/-- Whether RaceDay Connect agrees with a pass that is done was decided before the pass. -/
theorem agrees_iff_of_sound {start : Box Metres} {exchanges : List Exchange} (hstart : Sound start)
    (hdone : (turn crates event).run Box.perform start exchanges = (some (.ok .done), box)) :
    ∃ derived json now,
      deriveAll crates event start.db.courses.values = .ok (derived, json) ∧
        crossingsNow derived = .ok now ∧
          (Agrees box.ledger json now ↔ RecordsHeld start json now) := by
  obtain ⟨derived, json, now, hfinished⟩ := finished_of_done hdone
  have hbox : Sound box := by
    have hrun := (justified_turn crates event start).keep_run Sound hstart
      (fun box op exchange answer box' hbox hjustified hperform =>
        hbox.perform hjustified.choose_spec hperform) exchanges
    rw [hdone] at hrun
    exact hrun
  refine ⟨derived, json, now, hfinished.derives, hfinished.crosses, ?_⟩
  exact and_congr (course_agrees_iff hstart hbox hfinished.recorded.course)
    (forall_congr' fun runner => runner_agrees_iff hstart hbox hfinished.recorded.runners)

/-! ## A race without runners -/

/-- A race without mats, chips or runners. -/
def bareRace : RaceConfig where
  race := ⟨⟨.fromU128 4⟩, "5K", none, 1⟩
  checkpoints := []
  participants := []
  assignments := []
  antennas := ⟨∅, ∅⟩
  policy := ⟨3000, .first, none, ∅⟩
  sessions := []
  distinct := List.nodup_nil

/-- Its course, under a key that the operator may change. -/
def bareCourse (key : String) : Course Int := ⟨⟨.fromU128 4⟩, key, 5000, ∅⟩

/-- An event with nothing but that race. -/
def bareEvent : Event where
  reads := []
  load _ := .ok bareRace
  manualEntries _ := []
  revisions _ := []
  revision _ _ := none
  found := by
    intro race number published h
    cases h

/-- The JSON of courses without mats or a gun. -/
def bareJson (document : Manifest Int) : String :=
  "\x7b\"distances\":[" ++ ",".intercalate (document.distances.map fun distance =>
    "\x7b\"key\":\"" ++ distance.key ++ "\",\"name\":\"" ++ distance.name ++
      "\",\"meters\":" ++ toString distance.meters ++
      ".0,\"gunAt\":null,\"timingPoints\":[],\"laps\":" ++ toString distance.laps.toNat ++
      "\x7d") ++ "]\x7d"

/-- Nothing is named, and no error is shown. -/
def bareCrates : Crates Int := ⟨fun space _ => space, bareJson, fun _ => ""⟩

/-- The course as it is sent. -/
def bareText (key : String) : String :=
  bareJson ⟨[⟨key, "5K", 5000, none, [], 1⟩]⟩

theorem length_bare_text (key : String) :
    (bareText key).length = (bareText "").length + key.length := by
  have htext : ∀ key, bareText key =
      "\x7b\"distances\":[" ++ ("\x7b\"key\":\"" ++ key ++ "\",\"name\":\"" ++ "5K" ++
        "\",\"meters\":" ++ toString (5000 : Int) ++
        ".0,\"gunAt\":null,\"timingPoints\":[],\"laps\":" ++ toString 1 ++ "\x7d") ++ "]\x7d" :=
    fun _ => rfl
  rw [htext, htext]
  simp only [String.length_append, String.length_empty]
  omega

theorem bare_text_ne : bareText "5k" ≠ bareText "10k" := by
  intro heq
  have hlength := congrArg String.length heq
  rw [length_bare_text "5k", length_bare_text "10k"] at hlength
  have hfive : "5k".length = 2 := by decide
  have hten : "10k".length = 3 := by decide
  omega

theorem derive_bare {key : String} (hkey : key = "5k" ∨ key = "10k") :
    deriveAll bareCrates bareEvent [bareCourse key] =
      .ok ([⟨bareRace, bareCourse key, []⟩], bareText key) := by
  rcases hkey with rfl | rfl
  · rfl
  · rfl

/-- What the box was paired with. -/
def bareRow : PairingRow := ⟨"https://raceday.example", "r1", "Harbour run", "harbour", "secret"⟩

/-- The shipper's database, with what is recorded of the course. -/
def bareDb (courses : ExtTreeMap RaceId (Course Int)) (last : Option (String × Bool))
    (problem : Option String) : ShipDb Int where
  pairing := some bareRow
  courses := courses
  sentManifest := last
  sentCrossings := ∅
  sentRevisions := ∅
  unpaired := false
  lastError := problem

/-- Nothing went wrong. -/
def delivered : Exchange where
  reply := .response 200 none ""
  taken := true
  taken_of_delivered _ := rfl
  not_taken h := by
    rcases h with h | h
    · cases h
    · cases h

/-- The request was taken, and the connection was lost before the answer. -/
def lost : Exchange where
  reply := .failed "connection reset"
  taken := true
  taken_of_delivered _ := rfl
  not_taken h := by
    rcases h with h | h
    · cases h
    · cases h

section Bare

variable {rows : ExtTreeMap RaceId (Course Int)} {key : String} {last : Option (String × Bool)}
variable {problem : Option String} {ledger : List Entry}

/-- A turn comes to the course. -/
theorem bare_turn (hrows : rows.values = [bareCourse key]) (hkey : key = "5k" ∨ key = "10k")
    (exchange : Exchange) (exchanges : List Exchange) :
    (turn bareCrates bareEvent).run Box.perform ⟨bareDb rows last problem, ledger⟩
        (exchange :: exchange :: exchanges) =
      (sendManifest bareCrates bareRow.pairing bareEvent [⟨bareRace, bareCourse key, []⟩]
        (bareText key)).run Box.perform ⟨bareDb rows last problem, ledger⟩ exchanges := by
  refine (Program.run_ask rfl).trans ((Program.run_ask rfl).trans ?_)
  generalize hvalues : ShipDb.select _ Query.courses = values
  have heq : values = [bareCourse key] := hvalues.symm.trans hrows
  subst heq
  have hallowed : isAllowed bareRow.pairing.url = true := by decide +kernel
  rw [if_neg (by rw [List.isEmpty_cons]; exact Bool.false_ne_true), if_pos hallowed,
    derive_bare hkey]

/-- Behind the course there is nothing to send. -/
theorem bare_crossings (hkey : key = "5k" ∨ key = "10k") (exchange : Exchange) :
    (sendCrossings bareCrates bareRow.pairing bareEvent [⟨bareRace, bareCourse key, []⟩]).run
        Box.perform ⟨bareDb rows last problem, ledger⟩ [exchange, exchange] =
      (some (.ok .done), ⟨bareDb rows last none, ledger⟩) := by
  rcases hkey with rfl | rfl
  · rfl
  · rfl

/-- The course is sent when another one is recorded, or none. -/
theorem bare_send (hlast : ∀ delivered, last ≠ some (bareText key, delivered))
    (exchange : Exchange) (exchanges : List Exchange) :
    (sendManifest bareCrates bareRow.pairing bareEvent [⟨bareRace, bareCourse key, []⟩]
        (bareText key)).run Box.perform ⟨bareDb rows last problem, ledger⟩
        (exchange :: exchanges) =
      (Program.ask (.send bareRow.pairing (.manifest (bareText key))) fun sent : Sent =>
        match sent.outcome with
        | .delivered =>
            .ask (.execute (.recordManifest (bareText key) true)) fun _ =>
            sendCrossings bareCrates bareRow.pairing bareEvent [⟨bareRace, bareCourse key, []⟩]
        | .refused =>
            .ask (.execute (.recordManifest (bareText key) false)) fun _ =>
            .ask (.execute (.note ("the course was refused: " ++ sent.detail))) fun _ =>
            .done (.ok .stopped)
        | _ => settle sent).run Box.perform ⟨bareDb rows last problem, ledger⟩ exchanges := by
  refine (Program.run_ask rfl).trans ?_
  dsimp only
  split_ifs with hsame hrefused
  · exact absurd hsame (hlast true)
  · exact absurd hrefused (hlast false)
  · rfl

variable (rows key last problem ledger) in
theorem bare_delivered (hrows : rows.values = [bareCourse key]) (hkey : key = "5k" ∨ key = "10k")
    (hlast : ∀ delivered, last ≠ some (bareText key, delivered)) :
    (turn bareCrates bareEvent).run Box.perform ⟨bareDb rows last problem, ledger⟩
        (List.replicate 7 delivered) =
      (some (.ok .done), ⟨bareDb rows (some (bareText key, true)) none,
        .recorded .course :: .asked ⟨bareRow.pairing, .manifest (bareText key), delivered⟩ ::
          ledger⟩) := by
  refine (bare_turn hrows hkey _ _).trans ((bare_send hlast _ _).trans ?_)
  refine (Program.run_ask rfl).trans ?_
  refine (Program.run_ask rfl).trans ?_
  exact bare_crossings hkey delivered

variable (rows key last problem ledger) in
theorem bare_lost (hrows : rows.values = [bareCourse key]) (hkey : key = "5k" ∨ key = "10k")
    (hlast : ∀ delivered, last ≠ some (bareText key, delivered)) :
    (turn bareCrates bareEvent).run Box.perform ⟨bareDb rows last problem, ledger⟩
        (List.replicate 5 lost) =
      (some (.ok (.retry none)), ⟨bareDb rows last (some ("will retry: " ++ "connection reset")),
        .asked ⟨bareRow.pairing, .manifest (bareText key), lost⟩ :: ledger⟩) := by
  refine (bare_turn hrows hkey _ _).trans ((bare_send hlast _ _).trans ?_)
  rfl

variable (rows key problem ledger) in
theorem bare_same (hrows : rows.values = [bareCourse key]) (hkey : key = "5k" ∨ key = "10k") :
    (turn bareCrates bareEvent).run Box.perform
        ⟨bareDb rows (some (bareText key, true)) problem, ledger⟩ (List.replicate 5 delivered) =
      (some (.ok .done), ⟨bareDb rows (some (bareText key, true)) none, ledger⟩) := by
  refine (bare_turn hrows hkey _ _).trans ((Program.run_ask rfl).trans ?_)
  dsimp only
  split_ifs with hsame hrefused
  · exact bare_crossings hkey delivered
  · exact absurd rfl hsame
  · exact absurd rfl hsame

end Bare

/-- The courses of the bare race after the operator has recorded some keys. -/
def bareCourses (keys : List String) : ExtTreeMap RaceId (Course Int) :=
  keys.foldl (fun courses key => courses.insert ⟨.fromU128 4⟩ (bareCourse key)) ∅

/-- Whenever a pass ends `Done`, RaceDay Connect holds the course and the crossings of every runner
whose last batch was not refused, exactly when no item with an outstanding request had come back to
what was recorded of it, unless RaceDay Connect held that. -/
theorem agrees_iff (crates : Crates Metres) (row : PairingRow)
    (courses : ExtTreeMap RaceId (Course Metres)) (moves : List (Move Metres)) (event : Event)
    (exchanges : List Exchange) (box : Box Metres)
    (hdone : (turn crates event).run Box.perform ((Box.paired row courses).after crates moves)
      exchanges = (some (.ok .done), box)) :
    ∃ derived json now,
      deriveAll crates event ((Box.paired row courses).after crates moves).db.courses.values =
          .ok (derived, json) ∧
        crossingsNow derived = .ok now ∧
          (Agrees box.ledger json now ↔
            RecordsHeld ((Box.paired row courses).after crates moves) json now) :=
  agrees_iff_of_sound (sound_after row courses moves) hdone

/-- The first pass of a box that was paired delivers the course, and agrees. -/
theorem agrees_iff_first : ∃ box : Box Int, (turn bareCrates bareEvent).run Box.perform
      ((Box.paired bareRow (bareCourses ["5k"])).after bareCrates [])
      (List.replicate 7 delivered) = (some (.ok .done), box) ∧
    ∃ derived json now,
      deriveAll bareCrates bareEvent (bareCourses ["5k"]).values = .ok (derived, json) ∧
        crossingsNow derived = .ok now ∧ Agrees box.ledger json now := by
  have hrun := bare_delivered (bareCourses ["5k"]) "5k" none none [] rfl (.inl rfl)
    (by intro delivered heq; cases heq)
  refine ⟨_, hrun, ?_⟩
  obtain ⟨derived, json, now, hderived, hnow, hiff⟩ :=
    agrees_iff bareCrates bareRow (bareCourses ["5k"]) [] bareEvent _ _ hrun
  refine ⟨derived, json, now, hderived, hnow, hiff.mpr ⟨?_, ?_⟩⟩
  · intro houtstanding
    cases houtstanding
  · intro runner houtstanding
    cases houtstanding

/-- What the shipper and RaceDay Connect did while the key of the course changed: the first course
was delivered, and the second one was taken without an answer. -/
def bareHistory : List Entry :=
  [.asked ⟨bareRow.pairing, .manifest (bareText "10k"), lost⟩, .recorded .course,
    .asked ⟨bareRow.pairing, .manifest (bareText "5k"), delivered⟩]

/-- The operator changes the key of the course, and changes it back. -/
def bareMoves : List (Move Int) :=
  [.turn bareEvent (List.replicate 7 delivered), .course (bareCourse "10k"),
    .turn bareEvent (List.replicate 5 lost), .course (bareCourse "5k")]

theorem bare_after :
    (Box.paired bareRow (bareCourses ["5k"])).after bareCrates bareMoves =
      ⟨bareDb (bareCourses ["5k", "10k", "5k"]) (some (bareText "5k", true))
        (some ("will retry: " ++ "connection reset")), bareHistory⟩ := by
  have hsent := bare_delivered (bareCourses ["5k"]) "5k" none none [] rfl (.inl rfl)
    (by intro delivered heq; cases heq)
  have hlost := bare_lost (bareCourses ["5k", "10k"]) "10k" (some (bareText "5k", true)) none
    bareHistory.tail rfl (.inr rfl)
    (by intro delivered heq; exact bare_text_ne (congrArg Prod.fst (Option.some.inj heq)))
  have hfirst : Box.move bareCrates (Box.paired bareRow (bareCourses ["5k"]))
      (.turn bareEvent (List.replicate 7 delivered)) =
        ⟨bareDb (bareCourses ["5k"]) (some (bareText "5k", true)) none, bareHistory.tail⟩ :=
    congrArg Prod.snd hsent
  have hsecond : Box.move bareCrates
      ⟨bareDb (bareCourses ["5k", "10k"]) (some (bareText "5k", true)) none, bareHistory.tail⟩
      (.turn bareEvent (List.replicate 5 lost)) =
        ⟨bareDb (bareCourses ["5k", "10k"]) (some (bareText "5k", true))
          (some ("will retry: " ++ "connection reset")), bareHistory⟩ :=
    congrArg Prod.snd hlost
  unfold Box.after bareMoves
  rw [List.foldl_cons, hfirst, List.foldl_cons]
  change List.foldl _ (Box.move bareCrates ⟨bareDb (bareCourses ["5k", "10k"])
    (some (bareText "5k", true)) none, bareHistory.tail⟩ _) _ = _
  rw [hsecond]
  rfl

/-- A course that was taken without an answer is held after the course has changed back. -/
theorem not_agrees :
    ¬ ∀ (crates : Crates Int) (row : PairingRow) (courses : ExtTreeMap RaceId (Course Int))
      (moves : List (Move Int)) (event : Event) (exchanges : List Exchange) (box : Box Int),
      (turn crates event).run Box.perform ((Box.paired row courses).after crates moves)
          exchanges = (some (.ok .done), box) →
      ∃ derived json now,
        deriveAll crates event ((Box.paired row courses).after crates moves).db.courses.values =
            .ok (derived, json) ∧
          crossingsNow derived = .ok now ∧ Agrees box.ledger json now := by
  intro h
  have hlast := bare_same (bareCourses ["5k", "10k", "5k"]) "5k"
    (some ("will retry: " ++ "connection reset")) bareHistory rfl (.inl rfl)
  rw [← bare_after] at hlast
  obtain ⟨derived, json, now, hderived, _, hmanifest, _⟩ := h _ _ _ _ _ _ _ hlast
  rw [bare_after] at hderived
  have hjson : json = bareText "5k" := by
    have hbare : deriveAll bareCrates bareEvent [bareCourse "5k"] = _ := derive_bare (.inl rfl)
    exact congrArg Prod.snd (Except.ok.inj (hderived.symm.trans hbare))
  subst hjson
  exact bare_text_ne (Option.some.inj hmanifest).symm

end Runs

end Splitforge.Raceday
