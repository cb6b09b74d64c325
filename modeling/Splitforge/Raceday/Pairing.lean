import Splitforge.Library.Runs
import Splitforge.Raceday.Agreement

/-!
# Pairing again

The operator pairs the box again by a command of its own, which stores the pairing and then forgets
what was sent, one statement after another, while a pass goes on under the pairing it read. What is
recorded is of the pairing that is stored as long as no pass records an answer under another one.
-/

namespace Splitforge.Raceday

open Std (ExtTreeMap)
open Splitforge.Domain Splitforge.Library

variable {Metres : Type}

/-! ## The two processes -/

/-- The pairing that is stored, whether or not RaceDay Connect still knows it. -/
def ShipDb.stored (db : ShipDb Metres) : Option Pairing :=
  db.pairing.map PairingRow.pairing

/-- A pass that is under way, with the pairing it read. -/
structure Running (Metres : Type) where
  pairing : Option Pairing
  program : Shipping Metres

/-- A box, the pass that is under way, and what is left of the command that pairs the box. -/
structure Machine (Metres : Type) where
  box : Box Metres
  running : Option (Running Metres)
  resets : List (Statement Metres)

/-- What happens next: a pass begins, does one thing, or dies; the box is paired, one more table is
reset, or the command dies; or the operator records a course. -/
inductive Step (Metres : Type) where
  | start (event : Event)
  | advance (exchange : Exchange)
  | die
  | pair (row : PairingRow)
  | reset
  | abandon
  | course (course : Course Metres)

/-- A statement of another process. -/
def Box.change (box : Box Metres) (statement : Statement Metres) : Box Metres :=
  { box with db := (box.db.execute statement).getD box.db }

section Machine

variable [Meters Metres] (crates : Crates Metres)

/-- A pass does what it comes to. One whose statement fails is over. -/
def Machine.advance (machine : Machine Metres) (exchange : Exchange) : Machine Metres :=
  match machine.running with
  | some ⟨pairing, .ask op next⟩ =>
      match machine.box.perform op exchange with
      | some (answer, box) => { machine with box, running := some ⟨pairing, next answer⟩ }
      | none => { machine with running := none }
  | _ => { machine with running := none }

/-- One step. One pass is under way at a time, and one command. -/
def Machine.step (machine : Machine Metres) : Step Metres → Machine Metres
  | .start event =>
      match machine.running with
      | some _ => machine
      | none =>
          let paired : Option Pairing := machine.box.db.select .paired
          { machine with running := some ⟨paired, passUnder crates event paired⟩ }
  | .advance exchange => machine.advance exchange
  | .die => { machine with running := none }
  | .pair row =>
      match machine.resets, pairStatements row with
      | [], first :: rest => { machine with box := machine.box.change first, resets := rest }
      | _, _ => machine
  | .reset =>
      match machine.resets with
      | [] => machine
      | first :: rest => { machine with box := machine.box.change first, resets := rest }
  | .abandon => { machine with resets := [] }
  | .course course => { machine with box := machine.box.change (.recordCourse course) }

end Machine

/-- `ship.db` as it is created. -/
def Machine.created : Machine Metres where
  box := {
    db := {
      pairing := none
      courses := ∅
      sentManifest := none
      sentCrossings := ∅
      sentRevisions := ∅
      unpaired := false
      lastError := none }
    ledger := [] }
  running := none
  resets := []

/-! ## What was sent under the pairing -/

/-- The recorded course was sent under the pairing, and answered so. -/
def OwnCourse (stored : Option Pairing) (sent : Option (String × Bool)) (ledger : List Entry) :
    Prop :=
  ∀ json delivered, sent = some (json, delivered) → ∃ ask, .asked ask ∈ ledger ∧
    stored = some ask.pairing ∧ ask.document = .manifest json ∧
      ask.exchange.outcome = if delivered then .delivered else .refused

/-- The crossings recorded of a runner were sent under the pairing. -/
def OwnRunners (stored : Option Pairing) (sent : ByRunner) (ledger : List Entry) : Prop :=
  ∀ runner crossings, sent[runner]? = some crossings → ∃ ask batch, .asked ask ∈ ledger ∧
    stored = some ask.pairing ∧ ask.document = .crossings batch ∧ runner ∈ batch.replaces ∧
      batch.crossings.filter (fun crossing => runnerOf crossing = runner) = crossings

/-- A recorded revision was sent under the pairing, and answered so. -/
def OwnRevisions [Meters Metres] (crates : Crates Metres) (stored : Option Pairing)
    (sent : ExtTreeMap (RaceId ×ₗ Nat) RevisionOutcome) (ledger : List Entry) : Prop :=
  ∀ race number outcome, sent[toLex (race, number)]? = some outcome → ∃ ask document,
    .asked ask ∈ ledger ∧ stored = some ask.pairing ∧ ask.document = .results document ∧
      ask.exchange.outcome = outcome.answer ∧ Publishes crates race number document

/-- A box that is not paired any more was told so for its token. -/
def OwnUnpaired (stored : Option Pairing) (unpaired : Bool) (ledger : List Entry) : Prop :=
  unpaired = true → ∃ ask, .asked ask ∈ ledger ∧
    stored.map Pairing.token = some ask.pairing.token ∧ ask.exchange.outcome = .unpaired

/-- Everything that is recorded is of the pairing that is stored, except for tables that are about
to be reset. -/
structure OwnExcept [Meters Metres] (crates : Crates Metres) (resets : List (Statement Metres))
    (box : Box Metres) : Prop where
  course : .clearManifest ∈ resets ∨ OwnCourse box.db.stored box.db.sentManifest box.ledger
  runners : .clearCrossings ∈ resets ∨ OwnRunners box.db.stored box.db.sentCrossings box.ledger
  revisions : .clearRevisions ∈ resets ∨
    OwnRevisions crates box.db.stored box.db.sentRevisions box.ledger
  unpaired : .clearDelivery ∈ resets ∨ OwnUnpaired box.db.stored box.db.unpaired box.ledger

/-- Everything that is recorded is of the pairing that is stored. -/
structure Own [Meters Metres] (crates : Crates Metres) (box : Box Metres) : Prop where
  course : OwnCourse box.db.stored box.db.sentManifest box.ledger
  runners : OwnRunners box.db.stored box.db.sentCrossings box.ledger
  revisions : OwnRevisions crates box.db.stored box.db.sentRevisions box.ledger
  unpaired : OwnUnpaired box.db.stored box.db.unpaired box.ledger

/-! ## More requests, and empty tables -/

section Tables

variable {stored : Option Pairing} {ledger ledger' : List Entry}

theorem OwnCourse.mono {sent : Option (String × Bool)} (h : OwnCourse stored sent ledger)
    (hledger : ledger ⊆ ledger') : OwnCourse stored sent ledger' := by
  intro json delivered hsent
  obtain ⟨ask, hask, hrest⟩ := h json delivered hsent
  exact ⟨ask, hledger hask, hrest⟩

theorem OwnRunners.mono {sent : ByRunner} (h : OwnRunners stored sent ledger)
    (hledger : ledger ⊆ ledger') : OwnRunners stored sent ledger' := by
  intro runner crossings hsent
  obtain ⟨ask, batch, hask, hrest⟩ := h runner crossings hsent
  exact ⟨ask, batch, hledger hask, hrest⟩

theorem OwnRevisions.mono [Meters Metres] {crates : Crates Metres}
    {sent : ExtTreeMap (RaceId ×ₗ Nat) RevisionOutcome}
    (h : OwnRevisions crates stored sent ledger) (hledger : ledger ⊆ ledger') :
    OwnRevisions crates stored sent ledger' := by
  intro race number outcome hsent
  obtain ⟨ask, document, hask, hrest⟩ := h race number outcome hsent
  exact ⟨ask, document, hledger hask, hrest⟩

theorem OwnUnpaired.mono {unpaired : Bool} (h : OwnUnpaired stored unpaired ledger)
    (hledger : ledger ⊆ ledger') : OwnUnpaired stored unpaired ledger' := by
  intro hunpaired
  obtain ⟨ask, hask, hrest⟩ := h hunpaired
  exact ⟨ask, hledger hask, hrest⟩

theorem own_course_none : OwnCourse stored none ledger := by
  intro json delivered hsent
  cases hsent

theorem own_runners_empty : OwnRunners stored ∅ ledger := by
  intro runner crossings hsent
  rw [ExtTreeMap.getElem?_empty] at hsent
  cases hsent

theorem own_revisions_empty [Meters Metres] {crates : Crates Metres} :
    OwnRevisions crates stored ∅ ledger := by
  intro race number outcome hsent
  rw [ExtTreeMap.getElem?_empty] at hsent
  cases hsent

theorem own_unpaired_false : OwnUnpaired stored false ledger := by
  intro hunpaired
  cases hunpaired

end Tables

section Boxes

variable [Meters Metres] {crates : Crates Metres} {resets resets' : List (Statement Metres)}
variable {box box' : Box Metres}

theorem own_except_nil : OwnExcept crates [] box ↔ Own crates box := by
  constructor
  · intro h
    exact ⟨h.course.resolve_left List.not_mem_nil, h.runners.resolve_left List.not_mem_nil,
      h.revisions.resolve_left List.not_mem_nil, h.unpaired.resolve_left List.not_mem_nil⟩
  · intro h
    exact ⟨.inr h.course, .inr h.runners, .inr h.revisions, .inr h.unpaired⟩

/-- The statements that `Command::Pair` executes behind the first one. -/
def resetStatements : List (Statement Metres) :=
  [.clearManifest, .clearCrossings, .clearRevisions, .clearDelivery]

omit [Meters Metres] in
theorem pair_statements_eq (row : PairingRow) :
    (pairStatements row : List (Statement Metres)) = .storePairing row :: resetStatements :=
  rfl

/-- Every table is about to be reset. -/
theorem own_except_reset_statements : OwnExcept crates resetStatements box :=
  ⟨.inl (by simp [resetStatements]), .inl (by simp [resetStatements]),
    .inl (by simp [resetStatements]), .inl (by simp [resetStatements])⟩

/-- More requests and another problem leave what is recorded as it is. -/
theorem OwnExcept.of_eq (h : OwnExcept crates resets box)
    (hstored : box'.db.pairing = box.db.pairing)
    (hmanifest : box'.db.sentManifest = box.db.sentManifest)
    (hcrossings : box'.db.sentCrossings = box.db.sentCrossings)
    (hrevisions : box'.db.sentRevisions = box.db.sentRevisions)
    (hunpaired : box'.db.unpaired = box.db.unpaired) (hledger : box.ledger ⊆ box'.ledger) :
    OwnExcept crates resets box' := by
  have hsame : box'.db.stored = box.db.stored := congrArg (Option.map PairingRow.pairing) hstored
  refine ⟨h.course.imp_right ?_, h.runners.imp_right ?_, h.revisions.imp_right ?_,
    h.unpaired.imp_right ?_⟩
  · intro hown
    rw [hsame, hmanifest]
    exact hown.mono hledger
  · intro hown
    rw [hsame, hcrossings]
    exact hown.mono hledger
  · intro hown
    rw [hsame, hrevisions]
    exact hown.mono hledger
  · intro hown
    rw [hsame, hunpaired]
    exact hown.mono hledger

/-- A table that is reset holds nothing of another pairing. -/
theorem OwnExcept.of_reset {statement : Statement Metres}
    (h : OwnExcept crates (statement :: resets) box) (hreset : statement ∈ resetStatements) :
    OwnExcept crates resets (box.change statement) := by
  have hrest : ∀ {other : Statement Metres}, other ≠ statement →
      other ∈ statement :: resets → other ∈ resets :=
    fun hne hmem => (List.mem_cons.mp hmem).resolve_left hne
  simp only [resetStatements, List.mem_cons, List.not_mem_nil, or_false] at hreset
  rcases hreset with rfl | rfl | rfl | rfl
  · exact ⟨.inr own_course_none, h.runners.imp_left (hrest (by intro heq; cases heq)),
      h.revisions.imp_left (hrest (by intro heq; cases heq)),
      h.unpaired.imp_left (hrest (by intro heq; cases heq))⟩
  · exact ⟨h.course.imp_left (hrest (by intro heq; cases heq)), .inr own_runners_empty,
      h.revisions.imp_left (hrest (by intro heq; cases heq)),
      h.unpaired.imp_left (hrest (by intro heq; cases heq))⟩
  · exact ⟨h.course.imp_left (hrest (by intro heq; cases heq)),
      h.runners.imp_left (hrest (by intro heq; cases heq)), .inr own_revisions_empty,
      h.unpaired.imp_left (hrest (by intro heq; cases heq))⟩
  · exact ⟨h.course.imp_left (hrest (by intro heq; cases heq)),
      h.runners.imp_left (hrest (by intro heq; cases heq)),
      h.revisions.imp_left (hrest (by intro heq; cases heq)), .inr own_unpaired_false⟩

/-! ## What a pass records -/

/-- A statement that records what an answer was. -/
def Statement.records : Statement Metres → Bool
  | .recordManifest .. | .recordRevision .. | .unpair => true
  | .recordRunner _ crossings => crossings.isSome
  | _ => false

variable {event : Event} {pairing : Pairing}

section Recorded

variable {stored : Option Pairing} {ledger : List Entry}

/-- A course recorded under the stored pairing was sent under it. -/
theorem own_course_recorded {json : String} {delivered : Bool}
    (hjustified : Justified crates event pairing ledger
      (.execute (.recordManifest json delivered)))
    (hstored : stored = some pairing) : OwnCourse stored (some (json, delivered)) ledger := by
  obtain ⟨ask, hnewest, hpairing, hdocument, houtcome⟩ := hjustified
  intro json' delivered' hsent
  cases hsent
  exact ⟨ask, newest_mem hnewest, hstored.trans (congrArg some hpairing.symm), hdocument,
    houtcome⟩

/-- Crossings recorded of a runner under the stored pairing were sent under it. -/
theorem OwnRunners.record {db db' : ShipDb Metres} {runner : RunnerRef}
    {crossings : Option (List Crossing)} (h : OwnRunners stored db.sentCrossings ledger)
    (hjustified : Justified crates event pairing ledger
      (.execute (.recordRunner runner crossings)))
    (hstored : crossings.isSome = true → stored = some pairing)
    (hdb : db.execute (.recordRunner runner crossings) = some db') :
    OwnRunners stored db'.sentCrossings ledger := by
  obtain ⟨ask, batch, hnewest, hpairing, hdocument, _, hcrossings⟩ := hjustified
  intro other list hsent
  rw [get_record_runner hdb] at hsent
  split_ifs at hsent with heq
  · subst heq
    subst hsent
    have hnames := newest_names hnewest
    rw [hdocument] at hnames
    exact ⟨ask, batch, newest_mem hnewest, (hstored rfl).trans (congrArg some hpairing.symm),
      hdocument, of_decide_eq_true hnames, hcrossings⟩
  · exact h other list hsent

/-- A revision recorded under the stored pairing was sent under it. -/
theorem OwnRevisions.record {sent : ExtTreeMap (RaceId ×ₗ Nat) RevisionOutcome} {race : RaceId}
    {number : Nat} {outcome : RevisionOutcome} (h : OwnRevisions crates stored sent ledger)
    (hpublishable : Publishable crates event)
    (hjustified : Justified crates event pairing ledger
      (.execute (.recordRevision race number outcome)))
    (hstored : stored = some pairing) :
    OwnRevisions crates stored (sent.insert (toLex (race, number)) outcome) ledger := by
  obtain ⟨ask, document, hask, hpairing, hdocument, houtcome, hpublishes⟩ :=
    hjustified hpublishable
  intro race' number' outcome' hsent
  rw [get_insert] at hsent
  split_ifs at hsent with heq
  · cases hsent
    cases heq
    exact ⟨ask, document, hask, hstored.trans (congrArg some hpairing.symm), hdocument, houtcome,
      hpublishes⟩
  · exact h race' number' outcome' hsent

/-- A box that forgets that it is paired was told so under the stored pairing. -/
theorem own_unpaired_recorded
    (hjustified : Justified crates event pairing ledger (.execute .unpair))
    (hstored : stored = some pairing) : OwnUnpaired stored true ledger := by
  obtain ⟨ask, hask, hpairing, houtcome⟩ := hjustified
  intro _
  refine ⟨ask, hask, ?_, houtcome⟩
  rw [hstored, hpairing]
  rfl

end Recorded

/-- What is justified under the pairing that is stored is of that pairing. -/
theorem OwnExcept.perform (h : OwnExcept crates resets box)
    (hpublishable : Publishable crates event) {op : Op Metres} {exchange : Exchange}
    {answer : op.Answer}
    (hjustified : Justified crates event pairing box.ledger op)
    (hown : ∀ statement, op = .execute statement → statement.records →
      box.db.stored = some pairing)
    (hperform : box.perform op exchange = some (answer, box')) :
    OwnExcept crates resets box' := by
  cases op with
  | select query =>
      cases hperform
      exact h
  | send asked document =>
      cases hperform
      exact h.of_eq rfl rfl rfl rfl rfl (List.subset_cons_self _ _)
  | execute statement =>
      obtain ⟨db, hdb, rfl⟩ := Box.of_execute hperform
      have hledger : box.ledger ⊆ (statement.item.map Entry.recorded).toList ++ box.ledger :=
        List.subset_append_right _ _
      have hstored := hown statement rfl
      -- the tables a statement does not write stay as they are
      obtain ⟨hcourse, hrunners, hrevisions, hunpaired⟩ : OwnExcept crates resets
          ⟨box.db, (statement.item.map Entry.recorded).toList ++ box.ledger⟩ :=
        h.of_eq rfl rfl rfl rfl rfl hledger
      cases statement with
      | note problem | finish problem =>
          cases hdb
          exact ⟨hcourse, hrunners, hrevisions, hunpaired⟩
      | recordManifest json delivered =>
          cases hdb
          exact ⟨.inr ((own_course_recorded hjustified (hstored rfl)).mono hledger), hrunners,
            hrevisions, hunpaired⟩
      | recordRunner runner crossings =>
          have hwritten := h.runners.imp_right fun hown =>
            (hown.record hjustified hstored hdb).mono hledger
          cases hdb
          exact ⟨hcourse, hwritten, hrevisions, hunpaired⟩
      | recordRevision race number outcome =>
          have hwritten := h.revisions.imp_right fun hown =>
            (hown.record hpublishable hjustified (hstored rfl)).mono hledger
          rw [ShipDb.of_record_revision hdb]
          exact ⟨hcourse, hrunners, hwritten, hunpaired⟩
      | unpair =>
          cases hdb
          exact ⟨hcourse, hrunners, hrevisions,
            .inr ((own_unpaired_recorded hjustified (hstored rfl)).mono hledger)⟩
      | storePairing row => cases hjustified
      | clearManifest => cases hjustified
      | clearCrossings => cases hjustified
      | clearRevisions => cases hjustified
      | clearDelivery => cases hjustified
      | recordCourse course => cases hjustified

/-! ## Every interleaving -/

/-- A pass that is under way does nothing but what is justified under the pairing it read. -/
def Running.Justified (crates : Crates Metres) (ledger : List Entry) (running : Running Metres) :
    Prop :=
  ∃ event, Publishable crates event ∧
    match running.pairing with
    | some pairing => JustifiedFrom crates event pairing ledger running.program
    | none => running.program.Meets told
        (fun _ op => ∃ problem, op = .execute (.note problem)) (fun _ _ => True) ledger

/-- The invariant of every interleaving, but for the tables that are excused. -/
structure Faithful (crates : Crates Metres) (excused : List (Statement Metres))
    (machine : Machine Metres) : Prop where
  own : OwnExcept crates excused machine.box
  running : ∀ running, machine.running = some running →
    running.Justified crates machine.box.ledger
  resets : machine.resets ⊆ resetStatements

/-- No answer is recorded under another pairing than the one that is stored, and every revision can
be published. -/
def Undisturbed (crates : Crates Metres) (machine : Machine Metres) : Step Metres → Prop
  | .start event => Publishable crates event
  | .advance _ => ∀ pairing statement next,
      machine.running = some ⟨pairing, .ask (.execute statement) next⟩ → statement.records →
        machine.box.db.stored = pairing
  | _ => True

/-- The same, and the command that pairs the box is not cut short. -/
def Completed (crates : Crates Metres) (machine : Machine Metres) : Step Metres → Prop
  | .abandon => machine.resets = []
  | step => Undisturbed crates machine step

/-- The same, and the box is paired again only while nothing is recorded, or with the pairing that
is stored. -/
def Unrecorded (crates : Crates Metres) (machine : Machine Metres) : Step Metres → Prop
  | .pair row => machine.box.db.stored = some row.pairing ∨
      machine.box.db.sentManifest = none ∧ machine.box.db.sentCrossings = ∅ ∧
        machine.box.db.sentRevisions = ∅ ∧ machine.box.db.unpaired = false
  | step => Undisturbed crates machine step

variable {excused : List (Statement Metres)} {machine : Machine Metres}

theorem faithful_created : Faithful crates [] Machine.created := by
  refine ⟨own_except_nil.mpr ⟨own_course_none, own_runners_empty, own_revisions_empty,
    own_unpaired_false⟩, ?_, List.nil_subset _⟩
  intro running hrunning
  cases hrunning

theorem Faithful.start (h : Faithful crates excused machine)
    (hpublishable : Publishable crates event) :
    Faithful crates excused (machine.step crates (.start event)) := by
  unfold Machine.step
  dsimp only
  split
  · exact h
  · refine ⟨h.own, ?_, h.resets⟩
    intro running hrunning
    cases hrunning
    refine ⟨event, hpublishable, ?_⟩
    generalize (machine.box.db.select .paired : Option Pairing) = paired
    cases paired with
    | none => exact ⟨⟨_, rfl⟩, fun _ _ _ _ => trivial⟩
    | some pairing => exact justified_pass

theorem Faithful.stop (h : Faithful crates excused machine) :
    Faithful crates excused { machine with running := none } := by
  refine ⟨h.own, ?_, h.resets⟩
  intro running hrunning
  cases hrunning

/-- A pass that records nothing of another pairing keeps what is recorded its own. -/
theorem Faithful.advance (h : Faithful crates excused machine) (exchange : Exchange)
    (hallowed : Undisturbed crates machine (.advance exchange)) :
    Faithful crates excused (machine.step crates (.advance exchange)) := by
  show Faithful crates excused (machine.advance exchange)
  unfold Machine.advance
  split
  · next pairing op next hrunning =>
      split
      · next answer box hperform =>
          obtain ⟨event, hpublishable, hmeets⟩ := h.running _ hrunning
          have htold := told_of_perform hperform
          cases pairing with
          | none =>
              obtain ⟨⟨problem, rfl⟩, hnext⟩ := hmeets
              refine ⟨?_, ?_, h.resets⟩
              · have hnote : Justified crates event ⟨"", "", ""⟩ machine.box.ledger
                    (.execute (.note problem)) := trivial
                refine h.own.perform hpublishable hnote (fun statement hop hrecords => ?_) hperform
                cases hop
                cases hrecords
              · intro running heq
                cases heq
                exact ⟨event, hpublishable, hnext _ _ _ htold⟩
          | some pairing =>
              obtain ⟨hjustified, hnext⟩ := hmeets
              refine ⟨?_, ?_, h.resets⟩
              · refine h.own.perform hpublishable hjustified (fun statement hop hrecords => ?_)
                  hperform
                subst hop
                exact hallowed _ _ _ hrunning hrecords
              · intro running heq
                cases heq
                exact ⟨event, hpublishable, hnext _ _ _ htold⟩
      · exact h.stop
  · exact h.stop

theorem Faithful.course (h : Faithful crates excused machine) (course : Course Metres) :
    Faithful crates excused (machine.step crates (.course course)) :=
  ⟨h.own.of_eq rfl rfl rfl rfl rfl (List.Subset.refl _), h.running, h.resets⟩

/-- The first of the tables that are left to reset is reset. -/
theorem Faithful.reset {first : Statement Metres} {rest : List (Statement Metres)}
    (h : Faithful crates (first :: excused) machine) (hresets : machine.resets = first :: rest) :
    Faithful crates excused (machine.step crates .reset) := by
  have hsubset := h.resets
  rw [hresets] at hsubset
  unfold Machine.step
  dsimp only
  rw [hresets]
  exact ⟨h.own.of_reset (hsubset List.mem_cons_self), h.running,
    fun statement hmem => hsubset (List.mem_cons_of_mem _ hmem)⟩

/-- Without a command that is cut short, what is recorded is of the stored pairing, but for the
tables that are left to reset. -/
theorem Faithful.step_completed (h : Faithful crates machine.resets machine) {step : Step Metres}
    (hallowed : Completed crates machine step) :
    Faithful crates (machine.step crates step).resets (machine.step crates step) := by
  cases step with
  | start event =>
      have hstart := h.start hallowed
      have hresets : (machine.step crates (.start event)).resets = machine.resets := by
        unfold Machine.step
        dsimp only
        split
        · rfl
        · rfl
      rw [hresets]
      exact hstart
  | advance exchange =>
      have hadvance := h.advance exchange hallowed
      have hresets : (machine.step crates (.advance exchange)).resets = machine.resets := by
        show (machine.advance exchange).resets = _
        unfold Machine.advance
        split
        · split
          · rfl
          · rfl
        · rfl
      rw [hresets]
      exact hadvance
  | die => exact h.stop
  | course course => exact h.course course
  | abandon =>
      have hnone : machine.resets = [] := hallowed
      rw [hnone] at h
      exact ⟨h.own, h.running, List.nil_subset _⟩
  | reset =>
      cases hresets : machine.resets with
      | nil =>
          have hsame : machine.step crates .reset = machine := by
            unfold Machine.step
            dsimp only
            rw [hresets]
          rw [hsame]
          exact h
      | cons first rest =>
          have hreset := (hresets ▸ h : Faithful crates (first :: rest) machine).reset hresets
          have hrest : (machine.step crates .reset).resets = rest := by
            unfold Machine.step
            dsimp only
            rw [hresets]
          rw [hrest]
          exact hreset
  | pair row =>
      unfold Machine.step
      dsimp only
      rw [pair_statements_eq]
      cases hresets : machine.resets with
      | nil => exact ⟨own_except_reset_statements, h.running, List.Subset.refl _⟩
      | cons first rest => exact h

/-- When the box is paired again while nothing is recorded, what is recorded is of the stored
pairing throughout. -/
theorem Faithful.step_unrecorded (h : Faithful crates [] machine) {step : Step Metres}
    (hallowed : Unrecorded crates machine step) :
    Faithful crates [] (machine.step crates step) := by
  cases step with
  | start event => exact h.start hallowed
  | advance exchange => exact h.advance exchange hallowed
  | die => exact h.stop
  | course course => exact h.course course
  | abandon => exact ⟨h.own, h.running, List.nil_subset _⟩
  | reset =>
      cases hresets : machine.resets with
      | nil =>
          unfold Machine.step
          dsimp only
          rw [hresets]
          exact h
      | cons first rest =>
          have hown := own_except_nil.mp h.own
          exact Faithful.reset ⟨⟨.inr hown.course, .inr hown.runners, .inr hown.revisions,
            .inr hown.unpaired⟩, h.running, h.resets⟩ hresets
  | pair row =>
      unfold Machine.step
      dsimp only
      rw [pair_statements_eq]
      cases hresets : machine.resets with
      | cons first rest => exact h
      | nil =>
          refine ⟨?_, h.running, List.Subset.refl _⟩
          have hown := own_except_nil.mp h.own
          rcases hallowed with hsame | ⟨hmanifest, hcrossings, hrevisions, hunpaired⟩
          · have hstored : (machine.box.change (.storePairing row)).db.stored =
                machine.box.db.stored := hsame.symm
            exact own_except_nil.mpr ⟨hstored ▸ hown.course, hstored ▸ hown.runners,
              hstored ▸ hown.revisions, hstored ▸ hown.unpaired⟩
          · have hcourse : (machine.box.change (.storePairing row)).db.sentManifest = none :=
              hmanifest
            have hrunners : (machine.box.change (.storePairing row)).db.sentCrossings = ∅ :=
              hcrossings
            have hpublished : (machine.box.change (.storePairing row)).db.sentRevisions = ∅ :=
              hrevisions
            have htold : (machine.box.change (.storePairing row)).db.unpaired = false := hunpaired
            refine own_except_nil.mpr ⟨?_, ?_, ?_, ?_⟩
            · rw [hcourse]
              exact own_course_none
            · rw [hrunners]
              exact own_runners_empty
            · rw [hpublished]
              exact own_revisions_empty
            · rw [htold]
              exact own_unpaired_false

/-! ## Everything is sent again -/

/-- A pass does not change the pairing. -/
theorem stored_of_perform {op : Op Metres} {exchange : Exchange} {answer : op.Answer}
    (hjustified : Justified crates event pairing box.ledger op)
    (hperform : box.perform op exchange = some (answer, box')) :
    box'.db.stored = box.db.stored := by
  cases op with
  | select query =>
      cases hperform
      rfl
  | send asked document =>
      cases hperform
      rfl
  | execute statement =>
      obtain ⟨db, hdb, rfl⟩ := Box.of_execute hperform
      cases statement with
      | recordRevision race number outcome =>
          rw [ShipDb.of_record_revision hdb]
          rfl
      | note problem | finish problem | recordManifest json delivered | unpair
      | recordRunner runner crossings =>
          cases hdb
          rfl
      | storePairing row => cases hjustified
      | clearManifest => cases hjustified
      | clearCrossings => cases hjustified
      | clearRevisions => cases hjustified
      | clearDelivery => cases hjustified
      | recordCourse course => cases hjustified

/-- Every runner's crossings, the course and every revision were sent under the pairing that is
stored. -/
structure SentUnder (crates : Crates Metres) (event : Event) (derived : List (Derived Metres))
    (json : String) (now : ByRunner) (box : Box Metres) : Prop where
  course : ∃ ask, .asked ask ∈ box.ledger ∧ box.db.stored = some ask.pairing ∧
    ask.document = .manifest json ∧ ask.exchange.outcome = .delivered
  runners : ∀ runner crossings, now[runner]? = some crossings → ∃ ask batch,
    .asked ask ∈ box.ledger ∧ box.db.stored = some ask.pairing ∧
      ask.document = .crossings batch ∧ runner ∈ batch.replaces ∧
        batch.crossings.filter (fun crossing => runnerOf crossing = runner) = crossings
  revisions : ∀ entry ∈ owedRevisions event derived,
    (event.revision entry.1.course.race entry.2).isSome → ∃ ask document,
      .asked ask ∈ box.ledger ∧ box.db.stored = some ask.pairing ∧
        ask.document = .results document ∧
          Publishes crates entry.1.course.race entry.2 document

/-- A turn of a box that is not paired is not done. -/
theorem not_done_of_unpaired {start : Box Metres} {exchanges : List Exchange}
    (h : start.db.select .paired = (none : Option Pairing)) :
    (turn crates event).run Box.perform start exchanges ≠ (some (.ok .done), box) := by
  intro hrun
  have hmeets : (turn crates event).Meets Box.perform (fun _ _ => True)
      (fun value _ => value ≠ .ok .done) start := by
    refine ⟨trivial, fun exchange paired box' hperform => ?_⟩
    cases hperform
    rw [h]
    exact ⟨trivial, fun _ _ _ _ => by intro heq; cases heq⟩
  exact hmeets.returned hrun rfl

/-- A turn that is done has sent everything under the pairing that is stored. -/
theorem sent_of_done {start : Box Metres} {exchanges : List Exchange} (hown : Own crates start)
    (hpublishable : Publishable crates event)
    (hrun : (turn crates event).run Box.perform start exchanges = (some (.ok .done), box)) :
    ∃ derived json now, deriveAll crates event start.db.courses.values = .ok (derived, json) ∧
      crossingsNow derived = .ok now ∧ SentUnder crates event derived json now box := by
  cases hpaired : (start.db.select .paired : Option Pairing) with
  | none => exact absurd hrun (not_done_of_unpaired hpaired)
  | some pairing =>
      have hstored : start.db.stored = some pairing := by
        change (if start.db.unpaired then none else start.db.stored) = some pairing at hpaired
        split_ifs at hpaired
        exact hpaired
      have hmeets : (turn crates event).Meets Box.perform
          (fun box => Justified crates event pairing box.ledger) (fun _ _ => True) start := by
        refine ⟨trivial, fun exchange paired box' hperform => ?_⟩
        cases hperform
        rw [hpaired]
        exact Program.Meets.refine Box.ledger justified_pass
          fun box op exchange answer box' hperform => ⟨_, told_of_perform hperform⟩
      have hkeep := hmeets.keep_run
        (fun box => OwnExcept crates [] box ∧ box.db.stored = some pairing)
        ⟨own_except_nil.mpr hown, hstored⟩
        (fun box op exchange answer box' hinv hjustified hperform =>
          ⟨hinv.1.perform hpublishable hjustified (fun _ _ _ => hinv.2) hperform,
            (stored_of_perform hjustified hperform).trans hinv.2⟩) exchanges
      rw [hrun] at hkeep
      have hbox := own_except_nil.mp hkeep.1
      obtain ⟨derived, json, now, hfinished⟩ := finished_of_done hrun
      refine ⟨derived, json, now, hfinished.derives, hfinished.crosses, ?_, ?_, ?_⟩
      · exact hbox.course json true hfinished.recorded.course.record
      · intro runner crossings hnow
        refine hbox.runners runner crossings ?_
        have hrunners := hfinished.recorded.runners
        by_cases hsame : start.db.sentCrossings[runner]? = now[runner]?
        · rw [(hrunners.kept runner (.inl hsame)).2, hsame, hnow]
        · rw [(hrunners.settled runner hsame List.not_mem_nil List.not_mem_nil).1, hnow]
      · intro entry hentry hfound
        have hcontains := hfinished.revisions entry hentry hfound
        rw [← ExtTreeMap.isSome_getElem?_eq_contains] at hcontains
        obtain ⟨outcome, houtcome⟩ := Option.isSome_iff_exists.mp hcontains
        obtain ⟨ask, document, hask, hpairing, hdocument, _, hpublishes⟩ :=
          hbox.revisions _ _ outcome houtcome
        exact ⟨ask, document, hask, hpairing, hdocument, hpublishes⟩

end Boxes

section Claim

variable [Meters Metres]

/-- What is recorded is of the pairing that is stored: in every state, when no answer is recorded
under another pairing and the box is paired again only while nothing is recorded; and otherwise in
every state that the command which pairs the box has left behind, from where a pass that is done
has sent everything. -/
theorem recorded_is_own (crates : Crates Metres) (steps : List (Step Metres)) :
    (Allowed (Machine.step crates) (Unrecorded crates) Machine.created steps →
        Own crates (run (Machine.step crates) Machine.created steps).box) ∧
      (Allowed (Machine.step crates) (Completed crates) Machine.created steps →
        (run (Machine.step crates) Machine.created steps).resets = [] →
          Own crates (run (Machine.step crates) Machine.created steps).box ∧
            ∀ event exchanges box, Publishable crates event →
              (turn crates event).run Box.perform
                  (run (Machine.step crates) Machine.created steps).box exchanges =
                (some (.ok .done), box) →
              ∃ derived json now,
                deriveAll crates event
                    (run (Machine.step crates) Machine.created steps).box.db.courses.values =
                  .ok (derived, json) ∧
                crossingsNow derived = .ok now ∧
                  SentUnder crates event derived json now box) := by
  constructor
  · intro hallowed
    have hfaithful := @run_invariant _ _ _ _ (Faithful crates [])
      (fun _ _ h hstep => h.step_unrecorded hstep) _ _ faithful_created hallowed
    exact own_except_nil.mp hfaithful.own
  · intro hallowed hresets
    have hfaithful := @run_invariant _ _ _ _
      (fun machine => Faithful crates machine.resets machine)
      (fun _ _ h hstep => h.step_completed hstep) _ _ faithful_created hallowed
    rw [hresets] at hfaithful
    have hown := own_except_nil.mp hfaithful.own
    exact ⟨hown, fun event exchanges box hpublishable hrun => sent_of_done hown hpublishable hrun⟩

/-- Another race of RaceDay Connect. -/
def otherRow : PairingRow := ⟨"https://raceday.example", "r2", "Park run", "park", "other"⟩

/-- The command that pairs the box, from its first statement to its last. -/
def pairSteps (row : PairingRow) : List (Step Int) :=
  [.pair row, .reset, .reset, .reset, .reset]

/-- The box is paired with another race between the answer to a request and its recording. -/
def racingSteps : List (Step Int) :=
  pairSteps bareRow ++ [.course (bareCourse "5k"), .start bareEvent, .advance delivered,
    .advance delivered, .advance delivered] ++ pairSteps otherRow ++ [.advance delivered]

/-- A course that was sent to one race is recorded as sent to the race that the box was paired with
in between. -/
theorem not_recorded_is_own :
    ¬ ∀ (crates : Crates Int) (steps : List (Step Int)),
      Own crates (run (Machine.step crates) Machine.created steps).box := by
  intro h
  have hstored : (run (Machine.step bareCrates) Machine.created racingSteps).box.db.stored =
      some otherRow.pairing := by rfl
  have hsent : (run (Machine.step bareCrates) Machine.created racingSteps).box.db.sentManifest =
      some (bareText "5k", true) := by rfl
  have hledger : (run (Machine.step bareCrates) Machine.created racingSteps).box.ledger =
      [.recorded .course, .asked ⟨bareRow.pairing, .manifest (bareText "5k"), delivered⟩] := by rfl
  obtain ⟨ask, hask, hpairing, _⟩ := (h bareCrates racingSteps).course _ _ hsent
  rw [hledger] at hask
  rw [hstored] at hpairing
  have hbare : ask.pairing = bareRow.pairing := by
    rcases List.mem_cons.mp hask with heq | hask
    · cases heq
    · cases List.mem_singleton.mp hask
      rfl
  rw [hbare] at hpairing
  exact absurd hpairing (by decide)

end Claim

end Splitforge.Raceday
