import Splitforge.Raceday.Passes

/-!
# What a pass leaves recorded

A pass that runs alone and ends `Done` leaves the course and the crossings recorded as it derived
them, and every revision settled. It asked about what was not recorded so before and recorded the
answer, and asked nothing about the rest.
-/

namespace Splitforge.Raceday

open Std (ExtTreeMap)
open Splitforge.Domain Splitforge.Library

variable {Metres : Type}

/-- The course is recorded as delivered. Nothing happened to it if it was before, and nothing about
it is outstanding if it was not. -/
structure CourseRecorded (start : Box Metres) (json : String) (box : Box Metres) : Prop where
  record : box.db.sentManifest = some (json, true)
  kept : start.db.sentManifest = some (json, true) → Kept .course start.ledger box.ledger
  settled : start.db.sentManifest ≠ some (json, true) → outstanding .course box.ledger = false

/-- The same of the runners, when some of them are still to be sent and some sent ones are still to
be recorded. -/
structure RunnersRecorded (start : Box Metres) (now : ByRunner) (unsent unrecorded : List RunnerRef)
    (box : Box Metres) : Prop where
  kept : ∀ runner, start.db.sentCrossings[runner]? = now[runner]? ∨ runner ∈ unsent →
    Kept (.runner runner) start.ledger box.ledger ∧
      box.db.sentCrossings[runner]? = start.db.sentCrossings[runner]?
  settled : ∀ runner, start.db.sentCrossings[runner]? ≠ now[runner]? → runner ∉ unsent →
    runner ∉ unrecorded → box.db.sentCrossings[runner]? = now[runner]? ∧
      outstanding (.runner runner) box.ledger = false

/-- The course and the runners are recorded. -/
structure Recorded (start : Box Metres) (json : String) (now : ByRunner) (box : Box Metres) :
    Prop where
  course : CourseRecorded start json box
  runners : RunnersRecorded start now [] [] box

/-- A revision that is found is recorded. -/
def RevisionRecorded (event : Event) (box : Box Metres) (entry : Owed Metres) : Prop :=
  (event.revision entry.1.course.race entry.2).isSome →
    box.db.sentRevisions.contains (toLex (entry.1.course.race, entry.2)) = true

variable {start box box' : Box Metres} {json : String} {now : ByRunner}
variable {unsent unrecorded : List RunnerRef}

/-! ## What is left alone -/

theorem CourseRecorded.of_eq (h : CourseRecorded start json box)
    (hrecord : box'.db.sentManifest = box.db.sentManifest) (hledger : box'.ledger = box.ledger) :
    CourseRecorded start json box' :=
  ⟨hrecord.trans h.record, hledger ▸ h.kept, hledger ▸ h.settled⟩

theorem CourseRecorded.of_entry (h : CourseRecorded start json box)
    (hrecord : box'.db.sentManifest = box.db.sentManifest) {entry : Entry}
    (hother : entry.about .course = false) (hledger : box'.ledger = entry :: box.ledger) :
    CourseRecorded start json box' := by
  refine ⟨hrecord.trans h.record, fun hstart => ?_, fun hstart => ?_⟩
  · rw [hledger]
    exact .step hother (h.kept hstart)
  · rw [hledger, outstanding_cons_of_not_about hother]
    exact h.settled hstart

theorem RunnersRecorded.of_eq (h : RunnersRecorded start now unsent unrecorded box)
    (hrecord : box'.db.sentCrossings = box.db.sentCrossings) (hledger : box'.ledger = box.ledger) :
    RunnersRecorded start now unsent unrecorded box' := by
  constructor
  · intro runner hrunner
    rw [hledger, hrecord]
    exact h.kept runner hrunner
  · intro runner hchanged hsent hrecorded
    rw [hledger, hrecord]
    exact h.settled runner hchanged hsent hrecorded

theorem RunnersRecorded.of_entry (h : RunnersRecorded start now unsent unrecorded box)
    (hrecord : box'.db.sentCrossings = box.db.sentCrossings) {entry : Entry}
    (hother : ∀ runner, entry.about (.runner runner) = false)
    (hledger : box'.ledger = entry :: box.ledger) :
    RunnersRecorded start now unsent unrecorded box' := by
  constructor
  · intro runner hrunner
    rw [hledger, hrecord]
    exact ⟨.step (hother runner) (h.kept runner hrunner).1, (h.kept runner hrunner).2⟩
  · intro runner hchanged hsent hrecorded
    rw [hledger, hrecord, outstanding_cons_of_not_about (hother runner)]
    exact h.settled runner hchanged hsent hrecorded

/-! ## Batches -/

/-- The runners of a batch that was asked for are not recorded yet. -/
theorem RunnersRecorded.of_batch {batch : CrossingsBatch} {pairing : Pairing} {exchange : Exchange}
    (h : RunnersRecorded start now (batch.replaces ++ unsent) [] box)
    (hchanged : ∀ runner ∈ batch.replaces,
      start.db.sentCrossings[runner]? ≠ now[runner]? ∧ runner ∉ unsent) :
    RunnersRecorded start now unsent batch.replaces
      ⟨box.db, .asked ⟨pairing, .crossings batch, exchange⟩ :: box.ledger⟩ := by
  have hother : ∀ runner, runner ∉ batch.replaces →
      (Entry.asked ⟨pairing, .crossings batch, exchange⟩).about (.runner runner) = false :=
    fun runner hrunner => decide_eq_false hrunner
  constructor
  · intro runner hrunner
    have hnot : runner ∉ batch.replaces := by
      intro hmem
      obtain ⟨hne, hsent⟩ := hchanged runner hmem
      exact hrunner.elim hne hsent
    obtain ⟨hkept, hrecord⟩ := h.kept runner (hrunner.imp_right (List.mem_append_right _))
    exact ⟨.step (hother runner hnot) hkept, hrecord⟩
  · intro runner hne hsent hnot
    show _ ∧ outstanding _ (_ :: box.ledger) = false
    rw [outstanding_cons_of_not_about (hother runner hnot)]
    refine h.settled runner hne (fun hmem => ?_) List.not_mem_nil
    exact (List.mem_append.mp hmem).elim hnot hsent

/-- A runner is recorded as it is now. -/
theorem RunnersRecorded.of_record {runner : RunnerRef} {db : ShipDb Metres}
    (h : RunnersRecorded start now unsent (runner :: unrecorded) box)
    (hchanged : start.db.sentCrossings[runner]? ≠ now[runner]? ∧ runner ∉ unsent)
    (hdb : box.db.execute (.recordRunner runner now[runner]?) = some db) :
    RunnersRecorded start now unsent unrecorded
      ⟨db, .recorded (.runner runner) :: box.ledger⟩ := by
  constructor
  · intro other hother
    have hne : runner ≠ other := by
      intro heq
      subst heq
      exact hother.elim hchanged.1 hchanged.2
    obtain ⟨hkept, hrecord⟩ := h.kept other hother
    refine ⟨.step (decide_eq_false fun heq => hne (Item.runner.inj heq)) hkept, ?_⟩
    rw [get_record_runner hdb, if_neg hne]
    exact hrecord
  · intro other hother hsent hrecorded
    rw [get_record_runner hdb, outstanding_recorded]
    by_cases heq : runner = other
    · subst heq
      rw [if_pos rfl, if_pos rfl]
      exact ⟨rfl, rfl⟩
    · rw [if_neg heq, if_neg fun h => heq (Item.runner.inj h)]
      refine h.settled other hother hsent fun hmem => ?_
      exact (List.mem_cons.mp hmem).elim (fun h => heq h.symm) hrecorded

variable {post : Except (ShipError Metres) Pass → Box Metres → Prop}

/-- An answer that ends the pass does not end it `Done`. -/
theorem recorded_settle {sent : Sent} (h : ∀ value box, value ≠ .ok .done → post value box) :
    (settle sent).Meets Box.perform (fun _ _ => True) post box := by
  unfold settle
  split
  · exact ⟨trivial, fun _ _ _ _ => h _ _ (by intro heq; cases heq)⟩
  · exact ⟨trivial, fun _ _ _ _ => ⟨trivial, fun _ _ _ _ => h _ _ (by intro heq; cases heq)⟩⟩

theorem recorded_record_runners {rest : Shipping Metres} (runners : List RunnerRef)
    (hcourse : CourseRecorded start json box)
    (hrunners : RunnersRecorded start now unsent runners box)
    (hchanged : ∀ runner ∈ runners,
      start.db.sentCrossings[runner]? ≠ now[runner]? ∧ runner ∉ unsent)
    (hrest : ∀ box, CourseRecorded start json box → RunnersRecorded start now unsent [] box →
      rest.Meets Box.perform (fun _ _ => True) post box) :
    (recordRunners now rest runners).Meets Box.perform (fun _ _ => True) post box := by
  induction runners generalizing box with
  | nil => exact hrest box hcourse hrunners
  | cons runner runners ih =>
      refine ⟨trivial, fun exchange answer box' hperform => ?_⟩
      obtain ⟨db, hdb, rfl⟩ := Box.of_execute hperform
      refine ih (hcourse.of_entry ?_ rfl rfl)
        (hrunners.of_record (hchanged runner List.mem_cons_self) hdb)
        fun other hother => hchanged other (List.mem_cons_of_mem _ hother)
      cases hdb
      rfl

theorem recorded_send_batches {pairing : Pairing} {rest : Option String → Shipping Metres}
    (hpost : ∀ value box, value ≠ .ok .done → post value box)
    (hrest : ∀ problem box, CourseRecorded start json box → RunnersRecorded start now [] [] box →
      (rest problem).Meets Box.perform (fun _ _ => True) post box)
    (list : List CrossingsBatch) (hnodup : (list.flatMap CrossingsBatch.replaces).Nodup)
    (hchanged : ∀ runner ∈ list.flatMap CrossingsBatch.replaces,
      start.db.sentCrossings[runner]? ≠ now[runner]?)
    (problem : Option String) (hcourse : CourseRecorded start json box)
    (hrunners : RunnersRecorded start now (list.flatMap CrossingsBatch.replaces) [] box) :
    (sendBatches pairing now rest list problem).Meets Box.perform (fun _ _ => True) post box := by
  induction list generalizing box problem with
  | nil => exact hrest problem box hcourse hrunners
  | cons batch list ih =>
      rw [List.flatMap_cons] at hnodup hchanged hrunners
      obtain ⟨_, hlist, hdisjoint⟩ := List.nodup_append'.mp hnodup
      have htheirs : ∀ runner ∈ batch.replaces, start.db.sentCrossings[runner]? ≠ now[runner]? ∧
          runner ∉ list.flatMap CrossingsBatch.replaces :=
        fun runner hmem => ⟨hchanged runner (List.mem_append_left _ hmem), hdisjoint hmem⟩
      have hnext := fun problem box => @ih box hlist
        (fun runner hmem => hchanged runner (List.mem_append_right _ hmem)) problem
      refine ⟨trivial, fun exchange answer box' hperform => ?_⟩
      cases hperform
      have hasked : CourseRecorded start json
          ⟨box.db, .asked ⟨pairing, .crossings batch, exchange⟩ :: box.ledger⟩ :=
        hcourse.of_entry rfl rfl rfl
      dsimp only
      split
      · exact recorded_record_runners _ hasked (hrunners.of_batch htheirs) htheirs (hnext _)
      · exact recorded_record_runners _ hasked (hrunners.of_batch htheirs) htheirs (hnext _)
      · exact recorded_settle hpost

/-! ## Revisions -/

/-- What is recorded of items stays so while nothing happens to one. -/
theorem Recorded.of_eq (h : Recorded start json now box)
    (hmanifest : box'.db.sentManifest = box.db.sentManifest)
    (hcrossings : box'.db.sentCrossings = box.db.sentCrossings)
    (hledger : box'.ledger = box.ledger) : Recorded start json now box' :=
  ⟨h.course.of_eq hmanifest hledger, h.runners.of_eq hcrossings hledger⟩

theorem Recorded.of_results (h : Recorded start json now box) {pairing : Pairing}
    {document : ResultsRevision} {exchange : Exchange} :
    Recorded start json now
      ⟨box.db, .asked ⟨pairing, .results document, exchange⟩ :: box.ledger⟩ :=
  ⟨h.course.of_entry rfl rfl rfl, h.runners.of_entry rfl (fun _ => rfl) rfl⟩

section Pass

variable [Meters Metres] {crates : Crates Metres} {event : Event} {pairing : Pairing}
variable {all : List (Owed Metres)}

/-- The revisions that are not owed any more are recorded. -/
def AllRecorded (event : Event) (all owed : List (Owed Metres)) (box : Box Metres) : Prop :=
  ∀ entry ∈ all, entry ∈ owed ∨ RevisionRecorded event box entry

omit [Meters Metres] in
theorem AllRecorded.of_recorded {race : Derived Metres} {number : Nat} {owed : List (Owed Metres)}
    (h : AllRecorded event all ((race, number) :: owed) box)
    (hrecorded : RevisionRecorded event box (race, number)) : AllRecorded event all owed box := by
  intro entry hentry
  rcases h entry hentry with howed | hdone
  · rcases List.mem_cons.mp howed with rfl | howed
    · exact .inr hrecorded
    · exact .inl howed
  · exact .inr hdone

omit [Meters Metres] in
/-- One more revision is recorded, and no other one is lost. -/
theorem AllRecorded.of_insert {race : Derived Metres} {number : Nat} {owed : List (Owed Metres)}
    {outcome : RevisionOutcome} {db : ShipDb Metres}
    (h : AllRecorded event all ((race, number) :: owed) box)
    (hdb : box.db.execute (.recordRevision race.course.race number outcome) = some db)
    (ledger : List Entry) : AllRecorded event all owed ⟨db, ledger⟩ := by
  have hcontains : ∀ key, db.sentRevisions.contains key = true ↔
      key = toLex (race.course.race, number) ∨ box.db.sentRevisions.contains key = true := by
    intro key
    rw [ShipDb.of_record_revision hdb]
    show (box.db.sentRevisions.insert _ outcome).contains key = true ↔ _
    rw [ExtTreeMap.contains_insert, Bool.or_eq_true, beq_iff_eq, compare_eq_iff_eq]
    exact or_congr_left eq_comm
  intro entry hentry
  rcases h entry hentry with howed | hdone
  · rcases List.mem_cons.mp howed with rfl | howed
    · exact .inr fun _ => (hcontains _).mpr (.inl rfl)
    · exact .inl howed
  · exact .inr fun hfound => (hcontains _).mpr (.inr (hdone hfound))

theorem recorded_send_revisions {post : Except (ShipError Metres) Pass → Box Metres → Prop}
    (hpost : ∀ value box, value ≠ .ok .done → post value box)
    (hdone : ∀ box, Recorded start json now box → AllRecorded event all [] box →
      post (.ok .done) box)
    (owed : List (Owed Metres)) (problem : Option String) (hrecorded : Recorded start json now box)
    (hall : AllRecorded event all owed box) :
    (sendRevisions crates pairing event owed problem).Meets Box.perform (fun _ _ => True) post
      box := by
  induction owed generalizing box problem with
  | nil =>
      refine ⟨trivial, fun exchange answer box' hperform => ?_⟩
      cases hperform
      exact hdone _ (hrecorded.of_eq rfl rfl rfl) hall
  | cons entry owed ih =>
      obtain ⟨race, number⟩ := entry
      -- a revision that is recorded now, after a request or without one
      have hrecord : ∀ (outcome : RevisionOutcome) (problem : Option String) (box : Box Metres),
          Recorded start json now box → AllRecorded event all ((race, number) :: owed) box →
          (Program.ask (.execute (.recordRevision race.course.race number outcome)) fun _ =>
            sendRevisions crates pairing event owed problem).Meets Box.perform
              (fun _ _ => True) post box := by
        intro outcome problem box hrecorded hall
        refine ⟨trivial, fun exchange answer box' hperform => ?_⟩
        obtain ⟨db, hdb, rfl⟩ := Box.of_execute hperform
        refine ih problem (hrecorded.of_eq ?_ ?_ rfl) (hall.of_insert hdb _)
        · rw [ShipDb.of_record_revision hdb]
        · rw [ShipDb.of_record_revision hdb]
      refine ⟨trivial, fun exchange isDone box' hperform => ?_⟩
      cases hperform
      dsimp only
      split
      · next hcontained => exact ih problem hrecorded (hall.of_recorded fun _ => hcontained)
      · split
        · next hmissing =>
            refine ih problem hrecorded (hall.of_recorded fun hfound => ?_)
            rw [hmissing] at hfound
            cases hfound
        · split
          · next document hdocument =>
              refine ⟨trivial, fun exchange answer box' hperform => ?_⟩
              cases hperform
              dsimp only
              split
              · exact hrecord _ _ _ hrecorded.of_results hall
              · exact hrecord _ _ _ hrecorded.of_results hall
              · exact recorded_settle hpost
          · exact hrecord _ _ _ hrecorded hall

/-! ## The pass -/

/-- What a pass that began in one state found, and how it left the box. -/
structure Finished (crates : Crates Metres) (event : Event) (start : Box Metres)
    (derived : List (Derived Metres)) (json : String) (now : ByRunner) (box : Box Metres) :
    Prop where
  derives : deriveAll crates event start.db.courses.values = .ok (derived, json)
  crosses : crossingsNow derived = .ok now
  recorded : Recorded start json now box
  revisions : ∀ entry ∈ owedRevisions event derived, RevisionRecorded event box entry

/-- A pass that ends `Done` has finished. -/
def FinishedIfDone (crates : Crates Metres) (event : Event) (start : Box Metres)
    (value : Except (ShipError Metres) Pass) (box : Box Metres) : Prop :=
  value = .ok .done → ∃ derived json now, Finished crates event start derived json now box

theorem finished_of_not_done {value : Except (ShipError Metres) Pass} (h : value ≠ .ok .done) :
    FinishedIfDone crates event start value box :=
  fun hdone => absurd hdone h

theorem recorded_send_crossings {derived : List (Derived Metres)}
    (hderived : deriveAll crates event start.db.courses.values = .ok (derived, json))
    (hcourse : CourseRecorded start json box)
    (hcrossings : box.db.sentCrossings = start.db.sentCrossings)
    (hkept : ∀ runner, Kept (.runner runner) start.ledger box.ledger) :
    (sendCrossings crates pairing event derived).Meets Box.perform (fun _ _ => True)
      (FinishedIfDone crates event start) box := by
  unfold sendCrossings
  split
  · exact finished_of_not_done (by intro heq; cases heq)
  · next now hnow =>
      refine ⟨trivial, fun exchange sent box' hperform => ?_⟩
      cases hperform
      have hnames := (batches_spec now (changed box.db.sentCrossings now) maxCrossingsPerBatch).2
      change Program.Meets _ _ _ (sendBatches pairing now _
        (batches now (changed box.db.sentCrossings now) maxCrossingsPerBatch) none) _
      refine recorded_send_batches (fun value box hvalue => finished_of_not_done hvalue) ?_ _ ?_ ?_
        none hcourse ?_
      · intro problem box hcourse hrunners
        refine recorded_send_revisions (fun value box hvalue => finished_of_not_done hvalue) ?_ _
          problem ⟨hcourse, hrunners⟩ fun entry hentry => .inl hentry
        intro box hrecorded hall _
        exact ⟨derived, json, now, hderived, hnow, hrecorded,
          fun entry hentry => (hall entry hentry).resolve_left List.not_mem_nil⟩
      · rw [hnames]
        exact nodup_changed _ _
      · rw [hnames]
        intro runner hmem
        rw [← hcrossings]
        exact mem_changed.mp hmem
      · rw [hnames]
        constructor
        · intro runner _
          rw [hcrossings]
          exact ⟨hkept runner, rfl⟩
        · intro runner hne hnot
          rw [← hcrossings] at hne
          exact absurd (mem_changed.mpr hne) hnot

theorem recorded_send_manifest {derived : List (Derived Metres)}
    (hderived : deriveAll crates event start.db.courses.values = .ok (derived, json)) :
    (sendManifest crates pairing event derived json).Meets Box.perform (fun _ _ => True)
      (FinishedIfDone crates event start) start := by
  refine ⟨trivial, fun exchange last box' hperform => ?_⟩
  cases hperform
  dsimp only
  split_ifs with hsame hrefused
  · exact recorded_send_crossings hderived ⟨hsame, fun _ => .refl, fun hne => absurd hsame hne⟩ rfl
      fun _ => .refl
  · exact finished_of_not_done (by intro heq; cases heq)
  · refine ⟨trivial, fun exchange answer box' hperform => ?_⟩
    cases hperform
    dsimp only
    split
    · refine ⟨trivial, fun _ answer box' hperform => ?_⟩
      cases hperform
      refine recorded_send_crossings hderived ⟨rfl, fun hstart => absurd hstart hsame, fun _ => ?_⟩
        rfl fun runner => .step rfl (.step rfl .refl)
      rfl
    · exact ⟨trivial, fun _ _ _ _ => ⟨trivial, fun _ _ _ _ =>
        finished_of_not_done (by intro heq; cases heq)⟩⟩
    · exact recorded_settle fun value box hvalue => finished_of_not_done hvalue

theorem recorded_pass : (pass crates pairing event).Meets Box.perform (fun _ _ => True)
    (FinishedIfDone crates event start) start := by
  refine ⟨trivial, fun exchange courses box' hperform => ?_⟩
  cases hperform
  dsimp only
  split_ifs
  · exact ⟨trivial, fun _ _ _ _ => finished_of_not_done (by intro heq; cases heq)⟩
  · split
    · exact finished_of_not_done (by intro heq; cases heq)
    · next derived json hderived => exact recorded_send_manifest hderived
  · exact finished_of_not_done (by intro heq; cases heq)

/-- A turn that ends `Done` has finished a pass. -/
theorem finished_of_done {exchanges : List Exchange}
    (hrun : (turn crates event).run Box.perform start exchanges = (some (.ok .done), box)) :
    ∃ derived json now, Finished crates event start derived json now box := by
  have hmeets : (turn crates event).Meets Box.perform (fun _ _ => True)
      (FinishedIfDone crates event start) start := by
    refine ⟨trivial, fun exchange paired box' hperform => ?_⟩
    cases hperform
    cases start.db.select .paired with
    | none => exact ⟨trivial, fun _ _ _ _ => finished_of_not_done (by intro heq; cases heq)⟩
    | some pairing => exact recorded_pass
  exact hmeets.returned hrun rfl

end Pass

end Splitforge.Raceday
