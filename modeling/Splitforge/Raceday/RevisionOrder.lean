import Splitforge.Raceday.Agreement

/-!
# Revisions in order

What a turn of the shipper does about revisions, with whatever answers and wherever it stops. A
revision is posted when all before it are recorded and it is not, and recorded delivered when a post
of it was.
-/

namespace Splitforge.Raceday

open Std (ExtTreeMap)
open Splitforge.Domain Splitforge.Library

variable {Metres : Type}

/-! ## What is done about revisions -/

/-- Something done about a revision: a post of the one that was looked up last, with what came of
it, or a recording. -/
inductive Deed where
  | posted (about : Option (RaceId × Nat)) (document : ResultsRevision) (exchange : Exchange)
  | recorded (race : RaceId) (number : Nat) (outcome : RevisionOutcome)

/-- The box, the revision that was looked up last, and what was done about revisions, newest
first. -/
structure Desk (Metres : Type) where
  box : Box Metres
  about : Option (RaceId × Nat)
  deeds : List Deed

/-- The revision that was looked up last, behind an operation. -/
def looked (about : Option (RaceId × Nat)) : Op Metres → Option (RaceId × Nat)
  | .select (.sentRevision race number) => some (race, number)
  | _ => about

/-- What an operation does about a revision. -/
def deedOf (about : Option (RaceId × Nat)) (exchange : Exchange) : Op Metres → Option Deed
  | .send _ (.results document) => some (.posted about document exchange)
  | .execute (.recordRevision race number outcome) => some (.recorded race number outcome)
  | _ => none

/-- Does what a pass asks for, as the box does, and keeps what it does about revisions. -/
def Desk.perform (desk : Desk Metres) (op : Op Metres) (exchange : Exchange) :
    Option (op.Answer × Desk Metres) :=
  (desk.box.perform op exchange).map fun result =>
    (result.1, ⟨result.2, looked desk.about op,
      (deedOf desk.about exchange op).toList ++ desk.deeds⟩)

variable {desk desk' : Desk Metres} {exchange : Exchange}

/-- The box does the same unobserved. -/
theorem Desk.perform_box (desk : Desk Metres) (op : Op Metres) (exchange : Exchange) :
    (desk.perform op exchange).map (fun result => (result.1, result.2.box)) =
      desk.box.perform op exchange := by
  unfold Desk.perform
  rw [Option.map_map]
  exact Option.map_id'

/-- A turn leaves the box as it does unobserved. -/
theorem Desk.box_turn [Meters Metres] (crates : Crates Metres) (desk : Desk Metres) (event : Event)
    (exchanges : List Exchange) :
    ((turn crates event).run Desk.perform desk exchanges).2.box =
      desk.box.move crates (.turn event exchanges) :=
  congrArg Prod.snd (Program.run_view Desk.box Desk.perform_box)

theorem Desk.of_select {query : Query} {answer : Op.Answer (.select query : Op Metres)}
    (h : desk.perform (.select query) exchange = some (answer, desk')) :
    answer = desk.box.db.select query ∧
      desk' = ⟨desk.box, looked desk.about (.select query : Op Metres), desk.deeds⟩ := by
  injection h with h
  injection h with hanswer hdesk
  exact ⟨hanswer.symm, hdesk.symm⟩

theorem Desk.of_send {pairing : Pairing} {document : Document}
    {answer : Op.Answer (.send pairing document : Op Metres)}
    (h : desk.perform (.send pairing document) exchange = some (answer, desk')) :
    answer = exchange.reply.sent ∧ desk'.box.db = desk.box.db ∧ desk'.about = desk.about ∧
      desk'.deeds = (deedOf desk.about exchange (.send pairing document : Op Metres)).toList ++
        desk.deeds := by
  injection h with h
  injection h with hanswer hdesk
  rw [← hdesk]
  exact ⟨hanswer.symm, rfl, rfl, rfl⟩

theorem Desk.of_execute {statement : Statement Metres}
    {answer : Op.Answer (.execute statement : Op Metres)}
    (h : desk.perform (.execute statement) exchange = some (answer, desk')) :
    desk.box.db.execute statement = some desk'.box.db ∧ desk'.about = desk.about ∧
      desk'.deeds = (deedOf desk.about exchange (.execute statement)).toList ++ desk.deeds := by
  unfold Desk.perform at h
  cases hbox : desk.box.perform (.execute statement) exchange with
  | none =>
      rw [hbox] at h
      cases h
  | some result =>
      rw [hbox] at h
      injection h with h
      injection h with _ hdesk
      obtain ⟨db, hdb, hafter⟩ := Box.of_execute hbox
      rw [← hdesk, hafter]
      exact ⟨hdb, rfl, rfl⟩

/-! ## Orderly deeds -/

variable [Meters Metres] {crates : Crates Metres} {stored stored' : RaceId → Nat → Prop}

/-- Every post was of a stored revision behind all recorded ones and not recorded itself, and what
was recorded delivered had been delivered. -/
def Orderly (crates : Crates Metres) (stored : RaceId → Nat → Prop) : List Deed → Prop
  | [] => True
  | .posted about document _ :: older =>
      (∃ race number, about = some (race, number) ∧ stored race number ∧
        Publishes crates race number document ∧
          (∀ lower, 1 ≤ lower → lower < number →
            ∃ outcome, Deed.recorded race lower outcome ∈ older) ∧
          ∀ outcome, Deed.recorded race number outcome ∉ older) ∧
        Orderly crates stored older
  | .recorded race number outcome :: older =>
      (outcome = .delivered → ∃ document exchange,
        Deed.posted (some (race, number)) document exchange ∈ older ∧
          exchange.outcome = .delivered) ∧
        Orderly crates stored older

/-- What is stored stays stored. -/
theorem Orderly.mono {deeds : List Deed} (h : Orderly crates stored deeds)
    (hmono : ∀ race number, stored race number → stored' race number) :
    Orderly crates stored' deeds := by
  induction deeds with
  | nil => trivial
  | cons deed older ih =>
      cases deed with
      | posted about document exchange =>
          obtain ⟨⟨race, number, habout, hstored, hrest⟩, holder⟩ := h
          exact ⟨⟨race, number, habout, hmono race number hstored, hrest⟩, ih holder⟩
      | recorded race number outcome => exact ⟨h.1, ih h.2⟩

/-- What is recorded is what was done. -/
def Matches (desk : Desk Metres) : Prop :=
  ∀ race number outcome, desk.box.db.sentRevisions[toLex (race, number)]? = some outcome ↔
    .recorded race number outcome ∈ desk.deeds

/-- A revision is recorded. -/
def Desk.holds (desk : Desk Metres) (race : RaceId) (number : Nat) : Prop :=
  desk.box.db.sentRevisions.contains (toLex (race, number)) = true

/-- An operation that may come now. -/
def Due (crates : Crates Metres) (stored : RaceId → Nat → Prop) (desk : Desk Metres) :
    Op Metres → Prop
  | .send _ (.results document) => ∃ race number, desk.about = some (race, number) ∧
      stored race number ∧ Publishes crates race number document ∧
        (∀ lower, 1 ≤ lower → lower < number → desk.holds race lower) ∧ ¬ desk.holds race number
  | .execute (.recordRevision race number .delivered) => ∃ document exchange,
      Deed.posted (some (race, number)) document exchange ∈ desk.deeds ∧
        exchange.outcome = .delivered
  | .execute .clearRevisions => False
  | _ => True

/-- The deeds are orderly, and what is recorded is what was done. -/
structure Tidy (crates : Crates Metres) (stored : RaceId → Nat → Prop) (desk : Desk Metres) :
    Prop where
  orderly : Orderly crates stored desk.deeds
  agrees : Matches desk

omit [Meters Metres] in
theorem Matches.holds_iff (h : Matches desk) {race : RaceId} {number : Nat} :
    desk.holds race number ↔ ∃ outcome, Deed.recorded race number outcome ∈ desk.deeds := by
  unfold Desk.holds
  rw [ExtTreeMap.contains_eq_isSome_getElem?, Option.isSome_iff_exists]
  constructor
  · intro hsome
    obtain ⟨outcome, hlookup⟩ := hsome
    exact ⟨outcome, (h race number outcome).mp hlookup⟩
  · intro hrecorded
    obtain ⟨outcome, hmem⟩ := hrecorded
    exact ⟨outcome, (h race number outcome).mpr hmem⟩

omit [Meters Metres] in
/-- A revision that a statement records was not recorded before, and another is as it was. -/
theorem Matches.of_record {race : RaceId} {number : Nat} {outcome : RevisionOutcome}
    (h : Matches desk) (hfresh : ¬ desk.holds race number)
    (hdb : desk'.box.db.sentRevisions =
      desk.box.db.sentRevisions.insert (toLex (race, number)) outcome)
    (hdeeds : desk'.deeds = .recorded race number outcome :: desk.deeds) : Matches desk' := by
  intro other count settled
  rw [hdb, hdeeds, get_insert, List.mem_cons]
  split_ifs with hsame
  · obtain ⟨hrace, hnumber⟩ := Prod.mk.inj (toLex.injective hsame)
    subst hrace hnumber
    constructor
    · intro heq
      injection heq with heq
      exact .inl (heq ▸ rfl)
    · intro hdeed
      rcases hdeed with hdeed | hdeed
      · injection hdeed with _ _ hdeed
        exact congrArg some hdeed.symm
      · exact absurd (h.holds_iff.mpr ⟨settled, hdeed⟩) hfresh
  · rw [h other count settled]
    constructor
    · exact .inr
    · intro hdeed
      refine hdeed.resolve_left fun heq => hsame ?_
      injection heq with hrace hnumber _
      rw [hrace, hnumber]

theorem Tidy.of_eq (h : Tidy crates stored desk)
    (hrevisions : desk'.box.db.sentRevisions = desk.box.db.sentRevisions)
    (hdeeds : desk'.deeds = desk.deeds) : Tidy crates stored desk' := by
  constructor
  · rw [hdeeds]
    exact h.orderly
  · unfold Matches
    rw [hdeeds, hrevisions]
    exact h.agrees

/-- A revision is posted that is due. -/
theorem Tidy.post (h : Tidy crates stored desk) {pairing : Pairing} {document : ResultsRevision}
    (hdue : Due crates stored desk (.send pairing (.results document) : Op Metres))
    (hdb : desk'.box.db = desk.box.db)
    (hdeeds : desk'.deeds = .posted desk.about document exchange :: desk.deeds) :
    Tidy crates stored desk' := by
  obtain ⟨race, number, habout, hstored, hpublishes, hlower, hfresh⟩ := hdue
  rw [h.agrees.holds_iff] at hfresh
  constructor
  · rw [hdeeds]
    refine ⟨⟨race, number, habout, hstored, hpublishes, ?_, ?_⟩, h.orderly⟩
    · intro lower hone hlt
      exact h.agrees.holds_iff.mp (hlower lower hone hlt)
    · intro outcome hmem
      exact hfresh ⟨outcome, hmem⟩
  · intro race number outcome
    rw [hdeeds, hdb, List.mem_cons]
    refine (h.agrees race number outcome).trans ⟨.inr, fun hmem => ?_⟩
    exact hmem.resolve_left nofun

/-- A revision is recorded, which it was not before. -/
theorem Tidy.record (h : Tidy crates stored desk) {race : RaceId} {number : Nat}
    {outcome : RevisionOutcome}
    (hdue : Due crates stored desk (.execute (.recordRevision race number outcome) : Op Metres))
    (hdb : desk.box.db.execute (.recordRevision race number outcome) = some desk'.box.db)
    (hdeeds : desk'.deeds = .recorded race number outcome :: desk.deeds) :
    Tidy crates stored desk' := by
  have hfresh : ¬ desk.holds race number := by
    intro hholds
    have hfails : desk.box.db.execute (.recordRevision race number outcome) = none :=
      if_pos hholds
    rw [hfails] at hdb
    cases hdb
  constructor
  · rw [hdeeds]
    refine ⟨?_, h.orderly⟩
    intro hdelivered
    subst hdelivered
    exact hdue
  · exact h.agrees.of_record hfresh (by rw [ShipDb.of_record_revision hdb]) hdeeds

/-- Each operation that may come keeps the deeds orderly. -/
theorem Tidy.perform (h : Tidy crates stored desk) {op : Op Metres} {answer : op.Answer}
    (hdue : Due crates stored desk op)
    (hperform : desk.perform op exchange = some (answer, desk')) : Tidy crates stored desk' := by
  cases op with
  | select query =>
      obtain ⟨_, hdesk⟩ := Desk.of_select hperform
      rw [hdesk]
      exact ⟨h.orderly, h.agrees⟩
  | send pairing document =>
      obtain ⟨_, hdb, _, hdeeds⟩ := Desk.of_send hperform
      cases document with
      | manifest json => exact h.of_eq (congrArg ShipDb.sentRevisions hdb) hdeeds
      | crossings batch => exact h.of_eq (congrArg ShipDb.sentRevisions hdb) hdeeds
      | results document => exact h.post hdue hdb hdeeds
  | execute statement =>
      obtain ⟨hdb, _, hdeeds⟩ := Desk.of_execute hperform
      cases statement with
      | recordRevision race number outcome => exact h.record hdue hdb hdeeds
      | clearRevisions => exact hdue.elim
      | storePairing | clearManifest | clearCrossings | clearDelivery | recordCourse
      | recordManifest | recordRunner | unpair | note | finish =>
          refine h.of_eq ?_ hdeeds
          injection hdb with hdb
          rw [← hdb]

/-! ## What a pass owes -/

/-- Each revision comes behind all before it, among those recorded and those that came already. -/
def Ready (recorded : RaceId → Nat → Prop) : List (Owed Metres) → Prop
  | [] => True
  | (race, number) :: owed =>
      (∀ lower, 1 ≤ lower → lower < number → recorded race.course.race lower) ∧
        Ready (fun other count => recorded other count ∨ other = race.course.race ∧ count = number)
          owed

/-- The revisions of each race are listed from one on, and those listed are found, and stored. -/
structure Whole (event : Event) (stored : RaceId → Nat → Prop) : Prop where
  lists : ∀ race, ∃ count, event.revisions race = List.range' 1 count
  finds : ∀ race, ∀ number ∈ event.revisions race,
    (event.revision race number).isSome = true ∧ stored race number

/-- What is owed is found, and stored. -/
def AllFound (event : Event) (stored : RaceId → Nat → Prop) (owed : List (Owed Metres)) : Prop :=
  ∀ entry ∈ owed, (event.revision entry.1.course.race entry.2).isSome = true ∧
    stored entry.1.course.race entry.2

variable {recorded recorded' : RaceId → Nat → Prop} {event : Event}

omit [Meters Metres] in
theorem Ready.mono {owed : List (Owed Metres)} (h : Ready recorded owed)
    (hmono : ∀ race number, recorded race number → recorded' race number) :
    Ready recorded' owed := by
  induction owed generalizing recorded recorded' with
  | nil => trivial
  | cons entry owed ih =>
      refine ⟨fun lower hone hlt => hmono _ _ (h.1 lower hone hlt), ih h.2 ?_⟩
      intro race number hrecorded
      exact hrecorded.imp_left (hmono race number)

omit [Meters Metres] in
/-- The numbers of one race from some number on, when those before it are recorded. -/
theorem ready_numbers {race : Derived Metres} {owed : List (Owed Metres)}
    (howed : Ready (fun _ _ => False) owed) (count settled : Nat)
    (hsettled : ∀ lower, 1 ≤ lower → lower ≤ settled → recorded race.course.race lower) :
    Ready recorded
      (((List.range' (settled + 1) count).map fun number => (race, number)) ++ owed) := by
  induction count generalizing settled recorded with
  | zero => exact howed.mono nofun
  | succ count ih =>
      rw [List.range'_succ, List.map_cons, List.cons_append]
      constructor
      · intro lower hone hlt
        exact hsettled lower hone (by omega)
      · refine ih (settled + 1) fun lower hone hle => ?_
        rcases Nat.lt_or_eq_of_le hle with hlt | heq
        · exact .inl (hsettled lower hone (by omega))
        · exact .inr ⟨rfl, heq⟩

omit [Meters Metres] in
/-- What a pass owes comes in order, race by race. -/
theorem ready_owed_revisions (hwhole : Whole event stored) (derived : List (Derived Metres)) :
    Ready (fun _ _ => False) (owedRevisions event derived) := by
  induction derived with
  | nil => trivial
  | cons race derived ih =>
      obtain ⟨count, hcount⟩ := hwhole.lists race.course.race
      have hcons : owedRevisions event (race :: derived) =
          ((List.range' (0 + 1) count).map fun number => (race, number)) ++
            owedRevisions event derived := by
        unfold owedRevisions
        rw [List.flatMap_cons, hcount]
      rw [hcons]
      exact ready_numbers ih count 0 fun lower hone hle => absurd hone (by omega)

omit [Meters Metres] in
theorem all_found_owed_revisions (hwhole : Whole event stored) (derived : List (Derived Metres)) :
    AllFound event stored (owedRevisions event derived) := by
  intro entry hentry
  obtain ⟨race, _, hentry⟩ := List.mem_flatMap.mp hentry
  obtain ⟨number, hnumber, rfl⟩ := List.mem_map.mp hentry
  exact hwhole.finds race.course.race number hnumber

/-! ## What comes is due -/

omit [Meters Metres] in
theorem Desk.holds_iff_of_db (h : desk'.box.db = desk.box.db) {race : RaceId} {number : Nat} :
    desk'.holds race number ↔ desk.holds race number := by
  unfold Desk.holds
  rw [h]

omit [Meters Metres] in
/-- A revision that was recorded holds now, as what held before. -/
theorem Desk.holds_of_record {race : RaceId} {number : Nat} {outcome : RevisionOutcome}
    {answer : Op.Answer (.execute (.recordRevision race number outcome) : Op Metres)}
    (h : desk.perform (.execute (.recordRevision race number outcome)) exchange =
      some (answer, desk')) {other : RaceId} {count : Nat}
    (hheld : desk.holds other count ∨ other = race ∧ count = number) : desk'.holds other count := by
  obtain ⟨hdb, _, _⟩ := Desk.of_execute h
  unfold Desk.holds
  rw [ShipDb.of_record_revision hdb]
  show (desk.box.db.sentRevisions.insert _ outcome).contains _ = true
  rw [ExtTreeMap.contains_insert, Bool.or_eq_true, beq_iff_eq, compare_eq_iff_eq]
  rcases hheld with hheld | hsame
  · exact .inr hheld
  · exact .inl (by rw [hsame.1, hsame.2])

section Due

variable {pairing : Pairing}

/-- A program does nothing but what may come. -/
abbrev DueFrom (crates : Crates Metres) (stored : RaceId → Nat → Prop) (desk : Desk Metres)
    (program : Shipping Metres) : Prop :=
  program.Meets Desk.perform (Due crates stored) (fun _ _ => True) desk

theorem due_settle (sent : Sent) : DueFrom crates stored desk (settle sent) := by
  unfold settle
  split
  · exact ⟨trivial, fun _ _ _ _ => trivial⟩
  · exact ⟨trivial, fun _ _ _ _ => ⟨trivial, fun _ _ _ _ => trivial⟩⟩

/-- A revision is recorded, and what comes then finds it held. -/
theorem due_record {race : RaceId} {number : Nat} {outcome : RevisionOutcome}
    {rest : Shipping Metres}
    (hdue : Due crates stored desk (.execute (.recordRevision race number outcome) : Op Metres))
    (hrest : ∀ after : Desk Metres,
      (∀ other count, desk.holds other count ∨ other = race ∧ count = number →
        after.holds other count) → DueFrom crates stored after rest) :
    DueFrom crates stored desk
      (.ask (.execute (.recordRevision race number outcome)) fun _ => rest) := by
  refine ⟨hdue, fun exchange answer after hperform => hrest after ?_⟩
  intro other count hheld
  exact Desk.holds_of_record hperform hheld

/-- The revisions that are owed are posted and recorded in order. -/
theorem due_send_revisions (owed : List (Owed Metres)) (problem : Option String)
    (hready : Ready desk.holds owed) (hfound : AllFound event stored owed) :
    DueFrom crates stored desk (sendRevisions crates pairing event owed problem) := by
  induction owed generalizing desk problem with
  | nil => exact ⟨trivial, fun _ _ _ _ => trivial⟩
  | cons entry owed ih =>
      obtain ⟨race, number⟩ := entry
      obtain ⟨hlower, howed⟩ := hready
      obtain ⟨hsome, hstored⟩ := hfound _ List.mem_cons_self
      have hfounds : AllFound event stored owed :=
        fun other hother => hfound other (List.mem_cons_of_mem _ hother)
      -- the revision is recorded, with or without a post before
      have hrecord : ∀ (outcome : RevisionOutcome) (problem : Option String) (desk' : Desk Metres),
          desk'.box.db = desk.box.db →
          Due crates stored desk'
            (.execute (.recordRevision race.course.race number outcome) : Op Metres) →
          DueFrom crates stored desk'
            (.ask (.execute (.recordRevision race.course.race number outcome)) fun _ =>
              sendRevisions crates pairing event owed problem) := by
        intro outcome problem desk' hdb hdue
        refine due_record hdue fun after hafter => ?_
        refine ih problem (howed.mono fun other count hheld => ?_) hfounds
        exact hafter other count (hheld.imp_left (Desk.holds_iff_of_db hdb).mpr)
      refine ⟨trivial, fun exchange isDone desk' hperform => ?_⟩
      obtain ⟨hanswer, hdesk⟩ := Desk.of_select hperform
      have hdb : desk'.box.db = desk.box.db := by rw [hdesk]
      have habout : desk'.about = some (race.course.race, number) := by
        rw [hdesk]
        rfl
      have hheld : isDone = true ↔ desk.holds race.course.race number := by
        rw [hanswer]
        rfl
      dsimp only
      split
      · next hdone =>
          refine ih problem (howed.mono fun other count hother => ?_) hfounds
          rw [Desk.holds_iff_of_db hdb]
          rcases hother with hother | hsame
          · exact hother
          · rw [hsame.1, hsame.2]
            exact hheld.mp hdone
      · next hfresh =>
          split
          · next hmissing =>
              rw [hmissing] at hsome
              cases hsome
          · next published hpublished =>
              split
              · next document hdocument =>
                  obtain ⟨hof, hnumber⟩ := event.found _ _ _ hpublished
                  refine ⟨⟨race.course.race, number, habout, hstored,
                    ⟨_, _, published, _, rfl, hof, hnumber, hdocument⟩, ?_, ?_⟩, ?_⟩
                  · intro lower hone hlt
                    exact (Desk.holds_iff_of_db hdb).mpr (hlower lower hone hlt)
                  · rw [Desk.holds_iff_of_db hdb, ← hheld]
                    exact hfresh
                  · intro exchange sent desk'' hperform
                    obtain ⟨hsent, hdb', _, hdeeds⟩ := Desk.of_send hperform
                    dsimp only
                    split
                    · next houtcome =>
                        refine hrecord .delivered problem desk'' (hdb'.trans hdb)
                          ⟨document, exchange, ?_, ?_⟩
                        · rw [hdeeds, habout]
                          exact List.mem_cons_self
                        · rw [hsent] at houtcome
                          exact houtcome
                    · exact hrecord .refused _ desk'' (hdb'.trans hdb) trivial
                    · exact due_settle sent
              · exact hrecord .refused _ desk' hdb trivial

theorem due_record_runners {now : ByRunner} {rest : Shipping Metres}
    (hrest : ∀ desk, DueFrom crates stored desk rest) (runners : List RunnerRef) :
    DueFrom crates stored desk (recordRunners now rest runners) := by
  induction runners generalizing desk with
  | nil => exact hrest desk
  | cons runner runners ih => exact ⟨trivial, fun _ _ _ _ => ih⟩

theorem due_send_batches {now : ByRunner} {rest : Option String → Shipping Metres}
    (hrest : ∀ problem desk, DueFrom crates stored desk (rest problem))
    (list : List CrossingsBatch) (problem : Option String) :
    DueFrom crates stored desk (sendBatches pairing now rest list problem) := by
  induction list generalizing desk problem with
  | nil => exact hrest problem desk
  | cons batch list ih =>
      refine ⟨trivial, fun exchange sent desk' hperform => ?_⟩
      dsimp only
      split
      · exact due_record_runners (fun desk => ih problem) _
      · exact due_record_runners (fun desk => ih _) _
      · exact due_settle sent

theorem due_send_crossings (hwhole : Whole event stored) (derived : List (Derived Metres)) :
    DueFrom crates stored desk (sendCrossings crates pairing event derived) := by
  unfold sendCrossings
  split
  · trivial
  · refine ⟨trivial, fun exchange sent desk' hperform => ?_⟩
    refine due_send_batches (fun problem desk => ?_) _ none
    exact due_send_revisions _ problem ((ready_owed_revisions hwhole derived).mono nofun)
      (all_found_owed_revisions hwhole derived)

theorem due_send_manifest (hwhole : Whole event stored) (derived : List (Derived Metres))
    (json : String) :
    DueFrom crates stored desk (sendManifest crates pairing event derived json) := by
  refine ⟨trivial, fun exchange last desk' hperform => ?_⟩
  dsimp only
  split_ifs
  · exact due_send_crossings hwhole derived
  · trivial
  · refine ⟨trivial, fun exchange sent desk'' hperform => ?_⟩
    dsimp only
    split
    · exact ⟨trivial, fun _ _ _ _ => due_send_crossings hwhole derived⟩
    · exact ⟨trivial, fun _ _ _ _ => ⟨trivial, fun _ _ _ _ => trivial⟩⟩
    · exact due_settle sent

/-- A turn does nothing but what may come. -/
theorem due_turn (hwhole : Whole event stored) :
    DueFrom crates stored desk (turn crates event) := by
  refine ⟨trivial, fun exchange paired desk' hperform => ?_⟩
  cases paired with
  | none => exact ⟨trivial, fun _ _ _ _ => trivial⟩
  | some pairing =>
      refine ⟨trivial, fun exchange courses desk'' hperform => ?_⟩
      dsimp only
      split_ifs
      · exact ⟨trivial, fun _ _ _ _ => trivial⟩
      · split
        · trivial
        · exact due_send_manifest hwhole _ _
      · trivial

/-- A turn leaves the deeds orderly, wherever it stops. -/
theorem Tidy.turn (h : Tidy crates stored desk) (hwhole : Whole event stored)
    (exchanges : List Exchange) :
    Tidy crates stored ((turn crates event).run Desk.perform desk exchanges).2 :=
  (due_turn hwhole).keep_run (Tidy crates stored) h
    (fun _ _ _ _ _ htidy hdue hperform => htidy.perform hdue hperform) exchanges

end Due

end Splitforge.Raceday
