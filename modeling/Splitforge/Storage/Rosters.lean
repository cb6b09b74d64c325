import Splitforge.Storage.Configured

/-!
# Rosters

An import counts what it did to each line of a roster: whoever is entered already is left or
renamed, and anybody else is added. Importing a roster again leaves everybody as they are exactly
when it says one name of each bib.
-/

namespace Splitforge.Storage.Config

open Splitforge.Domain Splitforge.Library

section Rosters

variable {tables tables' : ConfigTables} {summary summary' : ImportSummary}
variable {roster : List Participant}

/-- One line of a roster counts once, and adds to the table what it counts as inserted. -/
theorem import_participant_counts {participant : Participant}
    (h : importParticipant (summary, tables) participant = .ok (summary', tables')) :
    summary'.inserted + summary'.updated + summary'.unchanged =
        summary.inserted + summary.updated + summary.unchanged + 1 ∧
      tables'.participants.length + summary.inserted =
        tables.participants.length + summary'.inserted ∧
      summary.inserted ≤ summary'.inserted ∧ summary.updated ≤ summary'.updated := by
  have hlength := @Saves.length_put _ _ _ _ participantSaves tables.participants participant
  rcases import_participant_cases h with ⟨existing, _, _, rfl, rfl⟩ |
    ⟨existing, hfind, _, rfl, rfl⟩ | ⟨hfind, _, _, rfl, rfl⟩
  · exact ⟨by dsimp only; omega, rfl, le_refl _, le_refl _⟩
  · have hsome : (tables.participants.find? fun row =>
        participantSaves.keyOf row = participantSaves.key participant).isSome :=
      Option.isSome_iff_exists.mpr ⟨existing, hfind⟩
    rw [if_pos hsome] at hlength
    exact ⟨by dsimp only; omega, by dsimp only; omega, le_refl _, Nat.le_succ _⟩
  · have hnone : ¬ (tables.participants.find? fun row =>
        participantSaves.keyOf row = participantSaves.key participant).isSome := by
      intro hsome
      obtain ⟨existing, hexisting⟩ := Option.isSome_iff_exists.mp hsome
      cases hfind.symm.trans hexisting
    rw [if_neg hnone] at hlength
    exact ⟨by dsimp only; omega, by dsimp only; omega, Nat.le_succ _, le_refl _⟩

/-- The lines of a roster are counted, and what is added to the table is what is counted as
inserted. -/
theorem import_participants_counts
    (h : roster.foldlM importParticipant (summary, tables) = .ok (summary', tables')) :
    summary'.inserted + summary'.updated + summary'.unchanged =
        summary.inserted + summary.updated + summary.unchanged + roster.length ∧
      tables'.participants.length + summary.inserted =
        tables.participants.length + summary'.inserted ∧
      summary.inserted ≤ summary'.inserted ∧ summary.updated ≤ summary'.updated := by
  induction roster generalizing summary tables with
  | nil =>
      cases h
      exact ⟨rfl, rfl, le_refl _, le_refl _⟩
  | cons participant roster ih =>
      rw [List.foldlM_cons] at h
      obtain ⟨⟨next, between⟩, hone, hrest⟩ := exists_of_bind h
      obtain ⟨htotal, hrows, hinserted, hupdated⟩ := import_participant_counts hone
      obtain ⟨htotal', hrows', hinserted', hupdated'⟩ := ih hrest
      rw [List.length_cons]
      exact ⟨by omega, by omega, by omega, by omega⟩

/-- A roster leaves everybody as they are when everybody it names is there under that name. -/
theorem left_alone_iff :
    roster.foldlM importParticipant (summary, tables) =
        .ok ({ summary with unchanged := summary.unchanged + roster.length }, tables) ↔
      ∀ participant ∈ roster, ∃ existing,
        (tables.participants.find? fun row =>
          (row.race, row.bib) = (participant.race, participant.bib)) = some existing ∧
          existing.name = participant.name := by
  induction roster generalizing summary with
  | nil => exact ⟨fun _ _ hmem => absurd hmem List.not_mem_nil, fun _ => rfl⟩
  | cons participant roster ih =>
      rw [List.foldlM_cons, List.forall_mem_cons]
      constructor
      · intro h
        obtain ⟨⟨next, between⟩, hone, hrest⟩ := exists_of_bind h
        obtain ⟨_, _, hinserted, hupdated⟩ := import_participants_counts hrest
        dsimp only at hinserted hupdated
        -- any line but one that is left would have been counted as another
        rcases import_participant_cases hone with ⟨existing, hfind, hname, rfl, rfl⟩ |
          ⟨existing, _, _, rfl, rfl⟩ | ⟨_, _, _, rfl, rfl⟩
        · refine ⟨⟨existing, hfind, hname⟩, ih.mp (hrest.trans ?_)⟩
          rw [List.length_cons]
          simp only [Nat.add_assoc, Nat.add_comm 1]
        · dsimp only at hupdated
          omega
        · dsimp only at hinserted
          omega
      · intro h
        obtain ⟨⟨existing, hfind, hname⟩, hrest⟩ := h
        have hone : importParticipant (summary, tables) participant =
            .ok ({ summary with unchanged := summary.unchanged + 1 }, tables) := by
          simp only [importParticipant, hfind, if_pos hname]
        rw [hone]
        refine (ih.mpr hrest).trans ?_
        rw [List.length_cons]
        simp only [Nat.add_assoc, Nat.add_comm 1]

end Rosters

/-- After any calls, a roster that is imported is counted line by line, and importing it again
leaves everybody as they are exactly when it says one name of each bib. -/
theorem roster_imported (calls : List ConfigCall) {roster : List Participant}
    {summary : ImportSummary} {tables' : ConfigTables}
    (himport : importParticipants roster (configured calls).tables = .ok (summary, tables')) :
    summary.inserted + summary.updated + summary.unchanged = roster.length ∧
      tables'.participants.length =
        (configured calls).tables.participants.length + summary.inserted ∧
      (importParticipants roster tables' = .ok (⟨0, 0, roster.length⟩, tables') ↔
        ∀ first ∈ roster, ∀ second ∈ roster,
          (first.race, first.bib) = (second.race, second.bib) → first.name = second.name) := by
  obtain ⟨htold, hsound⟩ := told_configured calls
  obtain ⟨htotal, hrows, _⟩ := import_participants_counts himport
  have hagain := @left_alone_iff tables' ⟨0, 0, 0⟩ roster
  dsimp only at hagain htotal hrows
  rw [Nat.zero_add] at hagain
  refine ⟨by omega, by omega, hagain.trans ?_⟩
  constructor
  · intro h first hfirst second hsecond hkey
    obtain ⟨existing, hfind, hname⟩ := h first hfirst
    obtain ⟨other, hother, hsame⟩ := h second hsecond
    rw [← hkey] at hother
    cases hfind.symm.trans hother
    exact hname.symm.trans hsame
  · intro h participant hparticipant
    obtain ⟨hafter, _⟩ := @told_import_participants _ _ _ epoch htold hsound _ _ _ himport
    obtain ⟨last, hlast⟩ := @exists_last_save _ _ _ participantSaves.key _ _ hparticipant
    have hsaved : LastSave participantSaves.key ((configured calls).said.participants ++ roster)
        (participantSaves.key participant) last := by
      rw [LastSave, List.filter_append, List.getLast?_append]
      exact (congrArg (fun found => Option.or found _) hlast).trans rfl
    obtain ⟨first, hsaves⟩ := hsaved.exists_first
    have hrow := (Saves.told_iff participantSaves.amend (fun _ => rfl) fun _ _ _ => rfl).mpr
      ⟨first, last, hsaves, rfl⟩
    have hfind := hafter.participants.find (participantSaves.key participant)
    refine ⟨participantSaves.amend first last, hfind.trans hrow, ?_⟩
    exact h last hlast.mem.1 participant hparticipant hlast.mem.2

/-- An event with one race. -/
def oneRace : List ConfigCall :=
  [⟨.saveEvent ⟨⟨.fromU128 1⟩, "Spring runs"⟩, epoch, none⟩,
    ⟨.saveRace ⟨⟨⟨.fromU128 2⟩, "5 km", none, 1⟩, ⟨.fromU128 1⟩⟩, epoch, none⟩]

/-- Two lines of a roster. -/
def twoEntrants : List Participant :=
  [⟨⟨.fromU128 10⟩, ⟨.fromU128 2⟩, ⟨"7"⟩, "Ada"⟩, ⟨⟨.fromU128 11⟩, ⟨.fromU128 2⟩, ⟨"8"⟩, "Grace"⟩]

/-- Two entrants are added, and left as they are when they are imported again. -/
theorem roster_imported_two_entrants :
    ∃ tables', importParticipants twoEntrants (configured oneRace).tables =
        .ok (⟨2, 0, 0⟩, tables') ∧
      importParticipants twoEntrants tables' = .ok (⟨0, 0, 2⟩, tables') := by
  have himport : importParticipants twoEntrants (configured oneRace).tables =
      .ok (⟨2, 0, 0⟩, { (configured oneRace).tables with participants := twoEntrants }) := by
    rfl
  obtain ⟨_, _, hagain⟩ := roster_imported oneRace himport
  exact ⟨_, himport, hagain.mpr (by decide)⟩

end Splitforge.Storage.Config
