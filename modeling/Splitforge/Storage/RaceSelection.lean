import Splitforge.Storage.Loaded

/-!
# Which race is meant

A command says which race it is about by a name or an identifier, or leaves that out where there is
one race. Whatever was configured, a race is picked only where no other answers to what was said,
and where several do all of them are named.
-/

namespace Splitforge.Storage.Config

open Splitforge.Domain Splitforge.Library
open Splitforge.Storage.Results (Texts)

/-- `str::eq_ignore_ascii_case`. -/
def eqIgnoreAsciiCase (first second : String) : Bool :=
  first.toList.map Char.toLower = second.toList.map Char.toLower

/-- `RaceSelection`: what a selector comes to. -/
inductive RaceSelection where
  | one (race : EventRace)
  | none
  | ambiguous (races : List EventRace)

/-- What the races that match come to. -/
def RaceSelection.of : List EventRace → RaceSelection
  | [] => .none
  | [race] => .one race
  | first :: second :: races => .ambiguous (first :: second :: races)

/-- Whether a race answers to a selector: to its name, in letters of either case, or to its
identifier. -/
def answersTo (selector : String) (race : EventRace) : Bool :=
  eqIgnoreAsciiCase race.name selector || race.id.uuid.toText = selector

/-- `resolve_race`. -/
def resolveRace (tables : ConfigTables) (selector : Option String) :
    Except StorageError RaceSelection :=
  (races tables).map fun races =>
    .of (selector.elim races fun selector => races.filter (answersTo selector))

/-- A race that was saved, as it is read, and that answers to what was said, if anything was. -/
def Said.Meant (said : Said) (selector : Option String) (race : EventRace) : Prop :=
  (∃ first last, FirstLast (·.2.id) said.races race.id first last ∧ race = raceOf first last) ∧
    ∀ name ∈ selector, answersTo name race = true

/-- A selection is a race where that alone is meant, and otherwise names all that are. -/
def Selects (said : Said) (selector : Option String) : RaceSelection → Prop
  | .one race => said.Meant selector race ∧ ∀ other, said.Meant selector other → other = race
  | .none => ∀ race, ¬ said.Meant selector race
  | .ambiguous races => 2 ≤ races.length ∧ (races.map (·.id)).Nodup ∧
      ∀ race, race ∈ races ↔ said.Meant selector race

section Selection

variable {said : Said} {tables : ConfigTables} {selector : Option String}

/-- What was said of a race makes one race of it. -/
theorem race_of_unique {wanted : RaceId} {first last first' last' : OffsetDateTime × EventRace}
    (h : FirstLast (·.2.id) said.races wanted first last)
    (h' : FirstLast (·.2.id) said.races wanted first' last') :
    raceOf first last = raceOf first' last' := by
  cases h.first.symm.trans h'.first
  cases h.last.symm.trans h'.last
  rfl

/-- A race's identifier, by its saves. -/
theorem race_of_id {wanted : RaceId} {first last : OffsetDateTime × EventRace}
    (h : FirstLast (·.2.id) said.races wanted first last) : (raceOf first last).id = wanted :=
  h.last.mem.2

/-- A row of a race, by its first save and its last. -/
theorem mem_races (h : Told said tables) {row : RaceRow} :
    row ∈ tables.races ↔ ∃ first last, FirstLast (·.2.id) said.races row.id first last ∧
      row = raceSaves.amend (raceRow first) (raceRow last) := by
  rw [h.races.mem, Saves.told_map_iff raceSaves.amend (fun _ => rfl) fun _ _ _ => rfl]
  rfl

/-- The races are read, each once. -/
theorem races_told (h : Told said tables) :
    ∃ read, races tables = .ok read ∧ (read.map (·.id)).Nodup ∧
      ∀ race, race ∈ read ↔ ∃ first last,
        FirstLast (·.2.id) said.races race.id first last ∧ race = raceOf first last := by
  -- a row is written by the first and the last save of one race
  have hread : ∀ saved : { saved : (OffsetDateTime × EventRace) × OffsetDateTime × EventRace //
      saved.1.2.id = saved.2.2.id },
      raceFromRow (raceSaves.amend (raceRow saved.1.1) (raceRow saved.1.2)) =
        .ok (raceOf saved.1.1 saved.1.2) := fun saved => race_from_row saved.2
  have hwritten : ∀ row ∈ sortByKey (fun row => toLex (row.createdAtUs.toInt, row.name))
      tables.races, ∃ saved : { saved : (OffsetDateTime × EventRace) × OffsetDateTime × EventRace //
        saved.1.2.id = saved.2.2.id },
        row = raceSaves.amend (raceRow saved.1.1) (raceRow saved.1.2) := by
    intro row hrow
    obtain ⟨first, last, hsaves, heq⟩ := (mem_races h).mp (mem_sort_by_key.mp hrow)
    exact ⟨⟨(first, last), hsaves.key_first.trans hsaves.last.mem.2.symm⟩, heq⟩
  obtain ⟨saves, heq, hraces⟩ := map_m_read hread hwritten
  refine ⟨_, hraces, ?_, fun race => ?_⟩
  · have hids : ((sortByKey (fun row : RaceRow => toLex (row.createdAtUs.toInt, row.name))
        tables.races).map (·.id)).Nodup :=
      ((sort_by_key_perm _ _).map _).nodup_iff.mpr h.races.nodup
    rw [heq, List.map_map] at hids
    rw [List.map_map]
    refine Eq.mp (congrArg List.Nodup (List.map_congr_left fun saved _ => ?_)) hids
    exact saved.2
  · rw [mem_map_shown hread, ← heq]
    constructor
    · intro hthere
      obtain ⟨saved, hrow, rfl⟩ := hthere
      obtain ⟨first, last, hsaves, hlast⟩ := (mem_races h).mp (mem_sort_by_key.mp hrow)
      have hsame := congrArg raceFromRow hlast
      rw [hread saved, race_from_row (hsaves.key_first.trans hsaves.last.mem.2.symm)] at hsame
      rw [Except.ok.inj hsame, race_of_id hsaves]
      exact ⟨first, last, hsaves, rfl⟩
    · intro hthere
      obtain ⟨first, last, hsaves, hrace⟩ := hthere
      have hid : first.2.id = last.2.id := hsaves.key_first.trans hsaves.last.mem.2.symm
      refine ⟨⟨(first, last), hid⟩,
        mem_sort_by_key.mpr ((mem_races h).mpr ⟨first, last, ?_, rfl⟩), hrace⟩
      have hkey : first.2.id = race.id := hsaves.key_first
      show FirstLast (·.2.id) said.races first.2.id first last
      rw [hkey]
      exact hsaves

/-- What the races that are meant come to selects them. -/
theorem selects_of {races : List EventRace} (hnodup : (races.map (·.id)).Nodup)
    (hmem : ∀ race, race ∈ races ↔ said.Meant selector race) :
    Selects said selector (.of races) := by
  cases races with
  | nil => exact fun race hmeant => List.not_mem_nil ((hmem race).mpr hmeant)
  | cons first races =>
      cases races with
      | nil =>
          exact ⟨(hmem first).mp List.mem_cons_self,
            fun other hmeant => List.mem_singleton.mp ((hmem other).mpr hmeant)⟩
      | cons second races => exact ⟨Nat.le_add_left 2 races.length, hnodup, hmem⟩

/-- What was said selects the races it means. -/
theorem resolve_told (h : Told said tables) :
    ∃ selection, resolveRace tables selector = .ok selection ∧ Selects said selector selection := by
  obtain ⟨read, hraces, hnodup, hmem⟩ := races_told h
  rw [resolveRace, hraces]
  cases selector with
  | none =>
      refine ⟨_, rfl, selects_of hnodup fun race => (hmem race).trans ?_⟩
      exact ⟨fun hsaved => ⟨hsaved, fun _ hname => by cases hname⟩, fun hmeant => hmeant.1⟩
  | some name =>
      refine ⟨_, rfl, selects_of (hnodup.sublist (List.filter_sublist.map _)) fun race => ?_⟩
      rw [Option.elim_some, List.mem_filter, hmem]
      refine and_congr_right fun _ => ?_
      simp

/-- Races that were saved under one identifier are one race. -/
theorem Said.Meant.eq_of_id {race other : EventRace} (h : said.Meant none race)
    (hother : said.Meant none other) (hid : other.id = race.id) : other = race := by
  obtain ⟨first, last, hsaves, hrace⟩ := h.1
  obtain ⟨first', last', hsaves', hequal⟩ := hother.1
  rw [hid] at hsaves'
  exact hequal.trans ((race_of_unique hsaves' hsaves).trans hrace.symm)

/-- A race that answers to a selector was saved. -/
theorem Said.Meant.saved {race : EventRace} (h : said.Meant selector race) : said.Meant none race :=
  ⟨h.1, fun _ hname => by cases hname⟩

/-- The text of an identifier means the race that has it, and those that have it for their name. -/
theorem meant_by_identifier_iff {wanted : RaceId} {other : EventRace} :
    said.Meant (some wanted.uuid.toText) other ↔ said.Meant none other ∧
      (eqIgnoreAsciiCase other.name wanted.uuid.toText = true ∨ other.id = wanted) := by
  constructor
  · intro hmeant
    refine ⟨hmeant.saved, ?_⟩
    rcases (Bool.or_eq_true _ _).mp (hmeant.2 _ rfl) with hname | hid
    · exact Or.inl hname
    · exact Or.inr (Domain.Id.ext (Uuid.to_text_injective (of_decide_eq_true hid)))
  · intro hmeant
    obtain ⟨hsaved, hname⟩ := hmeant
    refine ⟨hsaved.1, fun name hsaid => ?_⟩
    have hsaid : wanted.uuid.toText = name := Option.some.inj hsaid
    rw [← hsaid]
    rcases hname with hname | hid
    · exact (Bool.or_eq_true _ _).mpr (Or.inl hname)
    · exact (Bool.or_eq_true _ _).mpr (Or.inr (decide_eq_true (by rw [hid])))

end Selection

/-- After any calls, what was said selects the races it means, and a race that is selected loads as
itself. -/
theorem race_resolved (texts : Texts) (calls : List ConfigCall) (selector : Option String) :
    ∃ selection, resolveRace (configured calls).tables selector = .ok selection ∧
      Selects (configured calls).said selector selection ∧
      ∀ race, selection = .one race → ∃ config,
        load texts (configured calls).tables race.id = .ok config ∧ config.race = race := by
  obtain ⟨h, hsound⟩ := told_configured calls
  obtain ⟨selection, hresolved, hselection⟩ := @resolve_told _ _ selector h
  refine ⟨selection, hresolved, hselection, fun race hone => ?_⟩
  rw [hone] at hselection
  obtain ⟨⟨⟨first, last, hsaves, hrace⟩, _⟩, _⟩ := hselection
  obtain ⟨config, hload, htells⟩ := load_saved texts h hsound
    ((find_race h).mpr ⟨first, last, hsaves, rfl⟩)
  obtain ⟨first', last', hsaves', hconfig⟩ := htells.race
  exact ⟨config, hload, hconfig.trans ((race_of_unique hsaves' hsaves).trans hrace.symm)⟩

/-- After any calls, the text of an identifier picks the race that has it exactly when the race was
saved and no other has that text for its name. -/
theorem race_by_identifier_iff (calls : List ConfigCall) (race : EventRace) :
    resolveRace (configured calls).tables (some race.id.uuid.toText) = .ok (.one race) ↔
      (configured calls).said.Meant none race ∧
        ∀ other, (configured calls).said.Meant none other →
          eqIgnoreAsciiCase other.name race.id.uuid.toText = true → other = race := by
  obtain ⟨h, _⟩ := told_configured calls
  obtain ⟨selection, hresolved, hselection⟩ :=
    @resolve_told _ _ (some race.id.uuid.toText) h
  rw [hresolved]
  constructor
  · intro hone
    rw [Except.ok.inj hone] at hselection
    obtain ⟨hmeant, honly⟩ := hselection
    exact ⟨hmeant.saved, fun other hother hname => honly other (meant_by_identifier_iff.mpr
      ⟨hother, Or.inl hname⟩)⟩
  · intro hmeant
    obtain ⟨hsaved, honly⟩ := hmeant
    have hitself := meant_by_identifier_iff.mpr ⟨hsaved, Or.inr rfl⟩
    -- whatever else answers is the race itself
    have hall : ∀ other, (configured calls).said.Meant (some race.id.uuid.toText) other →
        other = race := by
      intro other hother
      obtain ⟨hsavedOther, hname | hid⟩ := meant_by_identifier_iff.mp hother
      · exact honly other hsavedOther hname
      · exact hsaved.eq_of_id hsavedOther hid
    cases selection with
    | one picked => rw [hall picked hselection.1]
    | none => exact absurd hitself (hselection race)
    | ambiguous races =>
        obtain ⟨hmany, hnodup, hmem⟩ := hselection
        have hone : races ⊆ [race] := fun other hother =>
          List.mem_singleton.mpr (hall other ((hmem other).mp hother))
        have hlength := (hnodup.of_map _).subperm hone |>.length_le
        rw [List.length_singleton] at hlength
        omega

end Splitforge.Storage.Config
