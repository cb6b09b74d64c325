import Splitforge.Raceday.Ledger

/-!
# What a pass does

Everything a pass records follows an answer that says so: whatever the database answers, and
whatever other processes do to it, a recording is of the newest request about its item, under the
pairing of the pass. A pass that runs alone and ends `Done` leaves recorded what it derived, and
has asked about exactly those items that were not recorded so before.
-/

namespace Splitforge.Raceday

open Std (ExtTreeMap)
open Splitforge.Domain Splitforge.Library

variable {Metres : Type}

/-! ## Whatever a pass is told -/

/-- What a pass can be told: any rows for a query, and anything for a request. -/
structure Telling (Metres : Type) where
  rows : (query : Query) → query.Rows Metres
  exchange : Exchange

/-- What comes of an operation when only the ledger counts. -/
def told (ledger : List Entry) :
    (op : Op Metres) → Telling Metres → Option (op.Answer × List Entry)
  | .select query, telling => some (telling.rows query, ledger)
  | .execute statement, _ => some ((), (statement.item.map Entry.recorded).toList ++ ledger)
  | .send pairing document, telling =>
      some (telling.exchange.reply.sent, .asked ⟨pairing, document, telling.exchange⟩ :: ledger)

/-- What the database answers is among what a pass can be told. -/
theorem told_of_perform {box box' : Box Metres} {op : Op Metres} {exchange : Exchange}
    {answer : op.Answer} (h : box.perform op exchange = some (answer, box')) :
    told box.ledger op ⟨box.db.select, exchange⟩ = some (answer, box'.ledger) := by
  cases op with
  | select query =>
      cases h
      rfl
  | send pairing document =>
      cases h
      rfl
  | execute statement =>
      obtain ⟨db, _, rfl⟩ := Box.of_execute h
      rfl

variable [Meters Metres]

/-- The answer that a revision is recorded for. -/
def RevisionOutcome.answer : RevisionOutcome → Outcome
  | .delivered => .delivered
  | .refused => .refused

/-- A document publishes a revision of a race. -/
def Publishes (crates : Crates Metres) (race : RaceId) (number : Nat)
    (document : ResultsRevision) : Prop :=
  ∃ config, ∃ course : Course Metres, ∃ published events,
    course.race = race ∧ published.race = race ∧ published.number = number ∧
      revision crates.newV5 config course published events = .ok document

/-- Every revision in an event database can be published. -/
def Publishable (crates : Crates Metres) (event : Event) : Prop :=
  ∀ course race number published, deriveRace crates event course = .ok race →
    event.revision race.course.race number = some published →
      ∃ document, revision crates.newV5 race.config race.course published race.events = .ok document

/-- What a pass may ask for after what was asked and recorded: it sends complete documents under
its pairing, and records what the newest request about an item came to. -/
def Justified (crates : Crates Metres) (event : Event) (pairing : Pairing) (ledger : List Entry) :
    Op Metres → Prop
  | .select _ => True
  | .send asked document => asked = pairing ∧ document.Complete
  | .execute (.recordManifest json delivered) =>
      ∃ ask, newest .course ledger = some ask ∧ ask.pairing = pairing ∧
        ask.document = .manifest json ∧
          ask.exchange.outcome = if delivered then .delivered else .refused
  | .execute (.recordRunner runner crossings) =>
      ∃ ask batch, newest (.runner runner) ledger = some ask ∧ ask.pairing = pairing ∧
        ask.document = .crossings batch ∧
          (ask.exchange.outcome = .delivered ∨ ask.exchange.outcome = .refused) ∧
            batch.crossings.filter (fun crossing => runnerOf crossing = runner) = crossings.getD []
  | .execute (.recordRevision race number outcome) =>
      Publishable crates event → ∃ ask document, .asked ask ∈ ledger ∧ ask.pairing = pairing ∧
        ask.document = .results document ∧ ask.exchange.outcome = outcome.answer ∧
          Publishes crates race number document
  | .execute .unpair =>
      ∃ ask, .asked ask ∈ ledger ∧ ask.pairing = pairing ∧ ask.exchange.outcome = .unpaired
  | .execute (.note _) | .execute (.finish _) => True
  | .execute _ => False

section Justified

variable (crates : Crates Metres) (event : Event) (pairing : Pairing)

/-- A program does nothing but what is justified. -/
abbrev JustifiedFrom (ledger : List Entry) (program : Shipping Metres) : Prop :=
  program.Meets told (Justified crates event pairing) (fun _ _ => True) ledger

variable {crates event pairing} {ledger : List Entry}

/-- An answer that ends the pass is one that was given. -/
theorem justified_settle {document : Document} {exchange : Exchange}
    (hdelivered : exchange.outcome ≠ .delivered) (hrefused : exchange.outcome ≠ .refused) :
    JustifiedFrom crates event pairing (.asked ⟨pairing, document, exchange⟩ :: ledger)
      (settle exchange.reply.sent) := by
  unfold settle
  split
  · exact ⟨trivial, fun _ _ _ _ => trivial⟩
  · next hretry =>
      have hunpaired : exchange.outcome = .unpaired := by
        unfold Exchange.outcome at *
        cases houtcome : exchange.reply.sent.outcome with
        | delivered => exact absurd houtcome hdelivered
        | refused => exact absurd houtcome hrefused
        | unpaired => rfl
        | retry after => exact absurd houtcome (hretry after)
      refine ⟨⟨_, List.mem_cons_self, rfl, hunpaired⟩, fun _ _ _ _ => ⟨trivial, fun _ _ _ _ => ?_⟩⟩
      trivial

/-- Runners are recorded after a batch that restated them. -/
theorem justified_record_runners {now : ByRunner} {rest : Shipping Metres}
    (hrest : ∀ ledger, JustifiedFrom crates event pairing ledger rest) (runners : List RunnerRef)
    (hrunners : ∀ runner ∈ runners,
      Justified crates event pairing ledger (.execute (.recordRunner runner now[runner]?))) :
    JustifiedFrom crates event pairing ledger (recordRunners now rest runners) := by
  induction runners generalizing ledger with
  | nil => exact hrest ledger
  | cons runner runners ih =>
      refine ⟨hrunners runner List.mem_cons_self, fun _ _ ledger' htold => ?_⟩
      cases htold
      -- a recording is no request
      exact ih fun other hother => hrunners other (List.mem_cons_of_mem _ hother)

/-- The batches are sent, and their runners recorded. -/
theorem justified_send_batches {now : ByRunner} {rest : Option String → Shipping Metres}
    (hrest : ∀ problem ledger, JustifiedFrom crates event pairing ledger (rest problem))
    (hkeyed : KeyedBy runnerOf now) (list : List CrossingsBatch)
    (hlist : ∀ batch ∈ list, batch.Restates now ∧ batch.replaces.Nodup)
    (problem : Option String) :
    JustifiedFrom crates event pairing ledger (sendBatches pairing now rest list problem) := by
  induction list generalizing ledger problem with
  | nil => exact hrest problem ledger
  | cons batch list ih =>
      obtain ⟨hrestates, hnodup⟩ := hlist batch List.mem_cons_self
      have hnext := fun ledger problem => @ih ledger
        (fun other hother => hlist other (List.mem_cons_of_mem _ hother)) problem
      refine ⟨⟨rfl, hrestates.complete hkeyed⟩, fun telling _ ledger' htold => ?_⟩
      cases htold
      have hrunners : telling.exchange.outcome = .delivered ∨ telling.exchange.outcome = .refused →
          ∀ runner ∈ batch.replaces, Justified crates event pairing
            (.asked ⟨pairing, .crossings batch, telling.exchange⟩ :: ledger)
            (.execute (.recordRunner runner now[runner]?)) := by
        intro houtcome runner hmem
        refine ⟨⟨pairing, .crossings batch, telling.exchange⟩, batch, ?_, rfl, rfl, houtcome, ?_⟩
        · rw [newest_asked]
          exact if_pos (decide_eq_true hmem)
        · rw [hrestates.of_runner hkeyed hnodup, if_pos hmem]
          rfl
      dsimp only
      split
      · next houtcome =>
          exact justified_record_runners (fun ledger => hnext ledger problem) _
            (hrunners (.inl houtcome))
      · next houtcome =>
          exact justified_record_runners (fun ledger => hnext ledger _) _
            (hrunners (.inr houtcome))
      · next hdelivered hrefused => exact justified_settle hdelivered hrefused

/-- The revisions of what was derived are sent and recorded. -/
theorem justified_send_revisions (owed : List (Owed Metres))
    (howed : ∀ entry ∈ owed, ∃ course, deriveRace crates event course = .ok entry.1)
    (problem : Option String) :
    JustifiedFrom crates event pairing ledger
      (sendRevisions crates pairing event owed problem) := by
  induction owed generalizing ledger problem with
  | nil => exact ⟨trivial, fun _ _ _ _ => trivial⟩
  | cons entry owed ih =>
      obtain ⟨race, number⟩ := entry
      have hnext := fun ledger problem => @ih ledger
        (fun other hother => howed other (List.mem_cons_of_mem _ hother)) problem
      obtain ⟨course, hrace⟩ := howed _ List.mem_cons_self
      refine ⟨trivial, fun telling isDone ledger' htold => ?_⟩
      cases htold
      dsimp only
      split
      · exact hnext _ _
      · split
        · exact hnext _ _
        · next published hpublished =>
            split
            · next document hdocument =>
                refine ⟨⟨rfl, trivial⟩, fun telling _ ledger' htold => ?_⟩
                cases htold
                have hpublishes : Publishes crates race.course.race number document := by
                  obtain ⟨hof, hnumber⟩ := event.found _ _ _ hpublished
                  exact ⟨_, _, published, _, rfl, hof, hnumber, hdocument⟩
                dsimp only
                split
                · next houtcome =>
                    refine ⟨fun _ => ⟨_, document, List.mem_cons_self, rfl, rfl, houtcome,
                      hpublishes⟩, fun _ _ ledger' htold => ?_⟩
                    exact hnext _ _
                · next houtcome =>
                    refine ⟨fun _ => ⟨_, document, List.mem_cons_self, rfl, rfl, houtcome,
                      hpublishes⟩, fun _ _ ledger' htold => ?_⟩
                    exact hnext _ _
                · next hdelivered hrefused => exact justified_settle hdelivered hrefused
            · next error herror =>
                refine ⟨fun hpublishable => ?_, fun _ _ ledger' htold => hnext _ _⟩
                obtain ⟨document, hdocument⟩ :=
                  hpublishable course race number published hrace hpublished
                rw [hdocument] at herror
                cases herror

theorem justified_send_crossings {derived : List (Derived Metres)}
    (hderived : ∀ race ∈ derived, ∃ course, deriveRace crates event course = .ok race) :
    JustifiedFrom crates event pairing ledger (sendCrossings crates pairing event derived) := by
  unfold sendCrossings
  split
  · trivial
  · next now hnow =>
      refine ⟨trivial, fun telling sent ledger' htold => ?_⟩
      cases htold
      refine justified_send_batches (fun problem ledger => ?_) (keyed_crossings_now hnow) _ ?_ none
      · refine justified_send_revisions _ (fun entry hentry => ?_) problem
        obtain ⟨race, hrace, hentry⟩ := List.mem_flatMap.mp hentry
        obtain ⟨number, _, rfl⟩ := List.mem_map.mp hentry
        exact hderived race hrace
      · intro batch hbatch
        obtain ⟨hall, hnames⟩ := batches_spec now (changed (telling.rows .sentCrossings) now)
          maxCrossingsPerBatch
        have hnodup := nodup_changed (telling.rows .sentCrossings) now
        rw [← hnames] at hnodup
        exact ⟨hall batch hbatch, List.nodup_flatMap.mp hnodup |>.1 batch hbatch⟩

theorem justified_send_manifest {derived : List (Derived Metres)} {json : String}
    (hderived : ∀ race ∈ derived, ∃ course, deriveRace crates event course = .ok race) :
    JustifiedFrom crates event pairing ledger
      (sendManifest crates pairing event derived json) := by
  refine ⟨trivial, fun telling last ledger' htold => ?_⟩
  cases htold
  dsimp only
  split_ifs
  · exact justified_send_crossings hderived
  · trivial
  · refine ⟨⟨rfl, trivial⟩, fun telling _ ledger' htold => ?_⟩
    cases htold
    dsimp only
    split
    · next houtcome =>
        exact ⟨⟨_, rfl, rfl, rfl, houtcome⟩, fun _ _ _ _ => justified_send_crossings hderived⟩
    · next houtcome =>
        exact ⟨⟨_, rfl, rfl, rfl, houtcome⟩, fun _ _ _ _ => ⟨trivial, fun _ _ _ _ => trivial⟩⟩
    · next hdelivered hrefused => exact justified_settle hdelivered hrefused

/-- What is derived is derived from courses. -/
theorem of_derive_all {courses : List (Course Metres)} {derived : List (Derived Metres)}
    {json : String} (h : deriveAll crates event courses = .ok (derived, json)) :
    ∀ race ∈ derived, ∃ course, deriveRace crates event course = .ok race := by
  unfold deriveAll at h
  obtain ⟨races, hcourses, h⟩ := exists_of_bind h
  obtain ⟨document, _, h⟩ := exists_of_bind h
  cases h
  intro race hrace
  obtain ⟨course, _, hcourse⟩ := exists_of_mem_map_m hcourses hrace
  exact ⟨course, hcourse⟩

/-- A pass does nothing but what is justified under its pairing. -/
theorem justified_pass : JustifiedFrom crates event pairing ledger (pass crates pairing event) := by
  refine ⟨trivial, fun telling courses ledger' htold => ?_⟩
  cases htold
  dsimp only
  split_ifs
  · exact ⟨trivial, fun _ _ _ _ => trivial⟩
  · split
    · trivial
    · next derived json hderived => exact justified_send_manifest (of_derive_all hderived)
  · trivial

end Justified

end Splitforge.Raceday
