import Splitforge.Raceday.RevisionOrder
import Splitforge.Storage.RevisionHistory

/-!
# Runs of deliveries

A box under one pairing: turns with whatever answers, ended anywhere, and courses recorded, problems
noted and revisions published at any time. What a turn lists and finds is what the result store held
when it looked. So the revisions of a race are posted in order, and none again that is settled.
-/

namespace Splitforge.Raceday

open Std (ExtTreeMap)
open Splitforge.Domain Splitforge.Library
open Splitforge.Storage.Results (ResultTables History Texts storedNumbers numbersTo numbers_to_eq
  listedNumbers readRevision)

variable {Metres : Type}

/-! ## What a turn reads -/

/-- The newest state of a database has a revision. -/
def StoredIn (past : List ResultTables) (race : RaceId) (number : Nat) : Prop :=
  ∃ newest ∈ past.head?, (number : Int) ∈ storedNumbers newest race

/-- A turn lists the revisions of a race in some state of the database, and reads each of them in
that state or a later one. -/
def ReadsStore (texts : Texts) (past now : List ResultTables) (event : Event) : Prop :=
  ∀ race, ∃ listed older, past <:+ listed :: older ∧ listed :: older <:+ now ∧
    listedNumbers texts listed race = .ok (event.revisions race) ∧
      ∀ number ∈ event.revisions race, ∃ read between, listed :: older <:+ read :: between ∧
        read :: between <:+ now ∧
          readRevision texts read race number = .ok (event.revision race number)

variable {newV5 : Uuid → String → Uuid} {texts : Texts} {past now : List ResultTables}
variable {tables : ResultTables} {race : RaceId} {event : Event}

/-- What a database had before it has still. -/
theorem StoredIn.later {number : Nat} (h : StoredIn past race number) (hnow : History newV5 now)
    (hlater : past <:+ now) : StoredIn now race number := by
  obtain ⟨newest, hnewest, hnumber⟩ := h
  obtain ⟨_, hfront⟩ := hnow.numbered
  have hmem := hlater.subset (List.mem_of_mem_head? hnewest)
  cases now with
  | nil => cases hmem
  | cons latest older => exact ⟨latest, rfl, (hfront latest rfl newest hmem race).subset hnumber⟩

theorem StoredIn.one_le {number : Nat} (h : StoredIn past race number)
    (hpast : History newV5 past) : 1 ≤ number := by
  obtain ⟨newest, hnewest, hnumber⟩ := h
  obtain ⟨count, hcount⟩ :=
    (hpast.numbered.1 newest (List.mem_of_mem_head? hnewest)).numbers race
  rw [hcount, Storage.Results.mem_numbers_to] at hnumber
  omega

/-- What was stored when a turn looked is stored now. -/
theorem stored_in_of_suffix {older : List ResultTables} {number : Nat}
    (hnow : History newV5 now) (hsuffix : tables :: older <:+ now)
    (hnumber : (number : Int) ∈ storedNumbers tables race) : StoredIn now race number :=
  StoredIn.later ⟨tables, rfl, hnumber⟩ hnow hsuffix

/-- A turn lists all revisions of each race that there were, and finds every one of them. -/
theorem ReadsStore.whole (h : ReadsStore texts past now event) (hnow : History newV5 now) :
    Whole event (StoredIn now) := by
  have hnumbered := hnow.numbered.1
  constructor
  · intro race
    obtain ⟨listed, older, _, hlisted, hnumbers, _⟩ := h race
    obtain ⟨count, hcount, _⟩ :=
      (hnumbered listed (hlisted.subset List.mem_cons_self)).listed_numbers_eq texts race
    rw [hnumbers] at hcount
    exact ⟨count, Except.ok.inj hcount⟩
  · intro race number hnumber
    obtain ⟨listed, older, _, hlisted, hnumbers, hreads⟩ := h race
    obtain ⟨read, between, hearlier, hread, hfound⟩ := hreads number hnumber
    have hstored : (number : Int) ∈ storedNumbers listed race := by
      obtain ⟨count, hcount, hstored⟩ :=
        (hnumbered listed (hlisted.subset List.mem_cons_self)).listed_numbers_eq texts race
      rw [hnumbers] at hcount
      rw [Except.ok.inj hcount] at hnumber
      rw [hstored, numbers_to_eq]
      exact List.mem_map_of_mem hnumber
    have hstill : (number : Int) ∈ storedNumbers read race := by
      obtain ⟨newest, hnewest, hmem⟩ := stored_in_of_suffix (hnow.suffix hread) hearlier hstored
      rw [← Option.mem_some.mp hnewest] at hmem
      exact hmem
    obtain ⟨published, hpublished⟩ :=
      (hnumbered read (hread.subset List.mem_cons_self)).read_revision_is_some texts hstill
    rw [hfound] at hpublished
    refine ⟨?_, stored_in_of_suffix hnow hlisted hstored⟩
    rw [Except.ok.inj hpublished]
    rfl

/-! ## Runs -/

section Runs

variable [Meters Metres]

/-- Executes a statement that is none of a turn. -/
def Desk.executed (desk : Desk Metres) (statement : Statement Metres) : Desk Metres :=
  { desk with box := { desk.box with db := (desk.box.db.execute statement).getD desk.box.db } }

/-- A box since it was paired, with the states of the event database so far, newest first. -/
inductive Shipped (crates : Crates Metres) (texts : Texts) (row : PairingRow) :
    List ResultTables → Desk Metres → Prop where
  | paired {past : List ResultTables} (courses : ExtTreeMap RaceId (Course Metres))
      (hpast : History crates.newV5 past) :
      Shipped crates texts row past ⟨Box.paired row courses, none, []⟩
  | published {past now : List ResultTables} {desk : Desk Metres}
      (h : Shipped crates texts row past desk) (hnow : History crates.newV5 now)
      (hlater : past <:+ now) : Shipped crates texts row now desk
  | course {past : List ResultTables} {desk : Desk Metres} (course : Course Metres)
      (h : Shipped crates texts row past desk) :
      Shipped crates texts row past (desk.executed (.recordCourse course))
  | noted {past : List ResultTables} {desk : Desk Metres} (problem : String)
      (h : Shipped crates texts row past desk) :
      Shipped crates texts row past (desk.executed (.note problem))
  | turn {past now : List ResultTables} {desk : Desk Metres} {event : Event}
      (exchanges : List Exchange) (h : Shipped crates texts row past desk)
      (hnow : History crates.newV5 now) (hlater : past <:+ now)
      (hreads : ReadsStore texts past now event) :
      Shipped crates texts row now ((turn crates event).run Desk.perform desk exchanges).2

/-- A post came in its turn: it is of a revision behind all before it, which were recorded, and it
was not recorded itself, nor was a later one posted. -/
structure InTurn (crates : Crates Metres) (past : List ResultTables) (older : List Deed)
    (race : RaceId) (number : Nat) (document : ResultsRevision) : Prop where
  stored : StoredIn past race number
  publishes : Publishes crates race number document
  behind : ∀ lower, StoredIn past race lower → lower < number →
    ∃ outcome, Deed.recorded race lower outcome ∈ older
  once : ∀ outcome, Deed.recorded race number outcome ∉ older
  rising : ∀ earlier document exchange,
    Deed.posted (some (race, earlier)) document exchange ∈ older → earlier ≤ number

/-- A revision is posted and its post answered with a status of success. -/
def Acknowledged (older : List Deed) (race : RaceId) (number : Nat) : Prop :=
  ∃ document exchange status retryAfter text,
    Deed.posted (some (race, number)) document exchange ∈ older ∧
      exchange.reply = .response status retryAfter text ∧ 200 ≤ status ∧ status ≤ 299

/-- The revisions were posted in order, each until it was settled. -/
structure PostedInOrder (crates : Crates Metres) (past : List ResultTables) (desk : Desk Metres) :
    Prop where
  /-- A revision is posted behind those before it, and not when it is settled. -/
  posted : ∀ newer older about document exchange,
    desk.deeds = newer ++ .posted about document exchange :: older →
      ∃ race number, about = some (race, number) ∧ InTurn crates past older race number document
  /-- One is recorded delivered behind a post that was acknowledged. -/
  delivered : ∀ newer older race number,
    desk.deeds = newer ++ .recorded race number .delivered :: older →
      Acknowledged older race number
  /-- What the shipper's database says is what was recorded. -/
  settled : ∀ race number outcome,
    desk.box.db.sentRevisions[toLex (race, number)]? = some outcome ↔
      .recorded race number outcome ∈ desk.deeds

variable {crates : Crates Metres} {row : PairingRow} {stored : RaceId → Nat → Prop}
variable {desk : Desk Metres}

theorem Orderly.of_append {newer older : List Deed} (h : Orderly crates stored (newer ++ older)) :
    Orderly crates stored older := by
  induction newer with
  | nil => exact h
  | cons deed newer ih =>
      cases deed with
      | posted about document exchange => exact ih h.2
      | recorded race number outcome => exact ih h.2

/-- The newest states are a history, and what was done about revisions is orderly. -/
theorem Shipped.tidy (h : Shipped crates texts row past desk) :
    History crates.newV5 past ∧ Tidy crates (StoredIn past) desk := by
  induction h with
  | paired courses hpast =>
      refine ⟨hpast, trivial, ?_⟩
      intro race number outcome
      show (∅ : ExtTreeMap (RaceId ×ₗ Nat) RevisionOutcome)[_]? = _ ↔ _ ∈ []
      rw [ExtTreeMap.getElem?_empty]
      exact ⟨nofun, nofun⟩
  | published h hnow hlater ih =>
      refine ⟨hnow, ih.2.orderly.mono ?_, ih.2.agrees⟩
      intro race number hstored
      exact hstored.later hnow hlater
  | course course h ih => exact ⟨ih.1, ih.2.orderly, ih.2.agrees⟩
  | noted problem h ih => exact ⟨ih.1, ih.2.orderly, ih.2.agrees⟩
  | turn exchanges h hnow hlater hreads ih =>
      have htidy : Tidy crates (StoredIn _) _ := ⟨ih.2.orderly.mono fun race number hstored =>
        hstored.later hnow hlater, ih.2.agrees⟩
      exact ⟨hnow, htidy.turn (hreads.whole hnow) exchanges⟩

/-- A revision that was posted had all before it recorded. -/
theorem Orderly.of_posted {deeds : List Deed} (h : Orderly crates stored deeds)
    {document : ResultsRevision} {exchange : Exchange} {number : Nat}
    (hposted : Deed.posted (some (race, number)) document exchange ∈ deeds) {lower : Nat}
    (hone : 1 ≤ lower) (hlt : lower < number) :
    ∃ outcome, .recorded race lower outcome ∈ deeds := by
  obtain ⟨newer, older, rfl⟩ := List.append_of_mem hposted
  obtain ⟨⟨race', number', habout, _, _, hlower, _⟩, _⟩ := h.of_append
  obtain ⟨hrace, hnumber⟩ := Prod.mk.inj (Option.some.inj habout)
  subst hrace hnumber
  obtain ⟨outcome, hmem⟩ := hlower lower hone hlt
  exact ⟨outcome, List.mem_append_right _ (List.mem_cons_of_mem _ hmem)⟩

/-- An outcome is `delivered` for a response of success, and for nothing else. -/
theorem delivered_iff {reply : Reply} : reply.sent.outcome = .delivered ↔
    ∃ status retryAfter text, reply = .response status retryAfter text ∧
      200 ≤ status ∧ status ≤ 299 := by
  cases reply with
  | failed error => exact ⟨nofun, nofun⟩
  | response status retryAfter text =>
      show classify status retryAfter = .delivered ↔ _
      unfold classify
      constructor
      · intro hdelivered
        split_ifs at hdelivered with hsuccess
        exact ⟨status, retryAfter, text, rfl, hsuccess⟩
      · intro h
        obtain ⟨_, _, _, heq, hsuccess⟩ := h
        cases heq
        exact if_pos hsuccess

/-- In every run under one pairing, the revisions of each race are posted in order, each until it is
settled, and recorded delivered when a post was acknowledged. -/
theorem posted_in_order (h : Shipped crates texts row past desk) :
    PostedInOrder crates past desk := by
  obtain ⟨hpast, htidy⟩ := h.tidy
  constructor
  · intro newer older about document exchange hdeeds
    have horderly := htidy.orderly
    rw [hdeeds] at horderly
    obtain ⟨⟨race, number, habout, hstored, hpublishes, hlower, hfresh⟩, holder⟩ :=
      horderly.of_append
    refine ⟨race, number, habout, hstored, hpublishes, ?_, hfresh, ?_⟩
    · intro lower hlowerstored hlt
      exact hlower lower (hlowerstored.one_le hpast) hlt
    · intro earlier document exchange hearlier
      by_contra hlt
      obtain ⟨outcome, hmem⟩ := holder.of_posted hearlier (hstored.one_le hpast) (by omega)
      exact hfresh outcome hmem
  · intro newer older race number hdeeds
    have horderly := htidy.orderly
    rw [hdeeds] at horderly
    obtain ⟨hdelivered, _⟩ := horderly.of_append
    obtain ⟨document, exchange, hposted, houtcome⟩ := hdelivered rfl
    obtain ⟨status, retryAfter, text, hreply, hsuccess⟩ := delivered_iff.mp houtcome
    exact ⟨document, exchange, status, retryAfter, text, hposted, hreply, hsuccess⟩
  · exact htidy.agrees

/-! ## A revision that is delivered -/

/-- The first revision of the race without runners. -/
def barePublication : Storage.Results.Publication where
  race := ⟨.fromU128 4⟩
  number := 1
  status := .provisional
  generatedAt := Storage.epoch
  reason := ""
  policy := ⟨.gun, ⟨3000, .first, none, ∅⟩, none⟩
  entries := []
  id := .fromU128 9
  actor := "operator"
  gunOffset := 0
  fits := {
    number := by decide
    policy := {
      minIntervalMs := by decide
      minLapMs := fun _ h => nomatch h
      perCheckpoint := fun _ h => nomatch h }
    entries := fun _ h => nomatch h }

/-- The event database with the race, before anything was published. -/
def bareTables : ResultTables :=
  Storage.Results.unpublished [barePublication.race.uuid.toText] []

/-- The call that publishes it. -/
def bareCall : Storage.Results.Call := ⟨⟨Storage.epoch, fun _ => none⟩, barePublication⟩

/-- The states of the event database, newest first. -/
def barePast : List ResultTables := [bareCall.after bareCrates.newV5 bareTables, bareTables]

/-- What a turn reads then. -/
def publishedEvent : Event where
  reads := []
  load _ := .ok bareRace
  manualEntries _ := []
  revisions race := if race = barePublication.race then [1] else []
  revision race number :=
    if race = barePublication.race ∧ number = 1 then some barePublication.toResultRevision
    else none
  found := by
    intro race number published h
    split_ifs at h with hsame
    cases h
    exact ⟨hsame.1.symm, hsame.2.symm⟩

theorem bare_history : History bareCrates.newV5 barePast :=
  .published (.opened _ _) ⟨bareTables, List.mem_cons_self, rfl⟩

theorem bare_call_published : Storage.Results.Published bareCrates.newV5 bareCall.env bareTables
    barePublication (bareCall.after bareCrates.newV5 bareTables) := by
  have haccepts : Storage.Results.Accepts bareCall.env bareTables barePublication := {
    unfaulted := fun _ => rfl
    policy := ⟨_, rfl⟩
    race := List.mem_cons_self
    ids := fun _ h => nomatch h
    numbers := fun _ h => nomatch h
    registered := fun _ h => nomatch h
    distinct := List.nodup_nil }
  obtain ⟨tables', hok, hpublished⟩ := Storage.Results.published_of_accepts bareCrates.newV5
    (Storage.Results.sound_unpublished _ _) haccepts
  have hafter : bareCall.after bareCrates.newV5 bareTables = tables' := congrArg Prod.snd hok
  rw [hafter]
  exact hpublished

/-- The turn reads what was published. -/
theorem bare_reads (texts : Texts) : ReadsStore texts barePast barePast publishedEvent := by
  have hpublished := bare_call_published
  have hnumbered := bare_history.numbered.1 _ List.mem_cons_self
  intro race
  refine ⟨_, _, List.suffix_rfl, List.suffix_rfl, ?_, ?_⟩
  · obtain ⟨count, hlisted, hstored⟩ := hnumbered.listed_numbers_eq texts race
    rw [hlisted]
    have hlength : (storedNumbers (bareCall.after bareCrates.newV5 bareTables) race).length =
        count := by
      rw [hstored, numbersTo, List.length_map, List.length_range]
    show Except.ok (List.range' 1 count) = .ok (if race = barePublication.race then [1] else [])
    rw [← hlength]
    split_ifs with hrace
    · rw [hrace, hpublished.stored_numbers_of_race]
      rfl
    · rw [hpublished.stored_numbers fun heq => hrace heq.symm]
      rfl
  · intro number hnumber
    refine ⟨_, _, List.suffix_rfl, List.suffix_rfl, ?_⟩
    change number ∈ (if race = barePublication.race then [1] else []) at hnumber
    split_ifs at hnumber with hrace
    · rw [List.mem_singleton.mp hnumber, hrace]
      have hheld := hpublished.held (Storage.Results.sound_unpublished _ _)
      have hread := hheld.revision_eq texts
      have hmicros : Storage.Results.RevisionInWholeMicros barePublication.toResultRevision :=
        ⟨dvd_zero _, fun _ h => (List.not_mem_nil h).elim⟩
      rw [Storage.Results.stored_revision_eq_self hmicros] at hread
      have hnumber : barePublication.number = 1 := rfl
      rw [hnumber] at hread
      unfold readRevision
      rw [hread]
      rfl
    · cases hnumber

/-- The first revision is posted, and recorded when it is acknowledged. -/
theorem first_posted_in_order : ∃ desk : Desk Int, PostedInOrder bareCrates barePast desk ∧
    desk.box.db.sentRevisions[toLex (barePublication.race, 1)]? = some .delivered := by
  have hpaired : Shipped bareCrates ⟨id, id, id⟩ bareRow barePast
      ⟨Box.paired bareRow (bareCourses ["5k"]), none, []⟩ := .paired _ bare_history
  have hturn := hpaired.turn (List.replicate 10 delivered) bare_history List.suffix_rfl
    (bare_reads _)
  refine ⟨_, posted_in_order hturn, ?_⟩
  decide +kernel

end Runs

end Splitforge.Raceday
