import Splitforge.Domain.Entity
import Splitforge.Raceday.Course
import Mathlib.Data.List.DropRight

/-!
# Importing a roster

A roster comes as rows of a bib and a name. Both are trimmed, and a bib is any text that is left:
what an operator puts on a number is not restricted.
-/

namespace Splitforge.Cli

open Splitforge.Domain Splitforge.Raceday

/-- One row of a roster. -/
structure RosterRow where
  bib : String
  name : String

/-- Why a roster was not imported: a line could not be read, a line has no bib, a bib appears
twice, or there are no rows. -/
inductive RosterError where
  | unreadable (line : Nat) (text : String)
  | noBib (line : Nat)
  | twice (bib : String)
  | noRows
deriving DecidableEq

/-- The rows from a line on, behind those whose bibs have been seen. -/
def importRows (existing : List Participant) (race : RaceId) (newId : Nat → ParticipantId)
    (line : Nat) (seen : List String) :
    List (Except String RosterRow) → Except RosterError (List Participant)
  | [] => .ok []
  | .error text :: _ => .error (.unreadable line text)
  | .ok row :: rows =>
      let bib := trim row.bib
      if bib = "" then .error (.noBib line)
      else if bib ∈ seen then .error (.twice bib)
      else
        match importRows existing race newId (line + 1) (bib :: seen) rows with
        | .error error => .error error
        | .ok participants =>
            -- a bib that is entered already keeps its participant
            let id := ((existing.find? fun participant => participant.bib.text = bib).map
              (·.id)).getD (newId line)
            .ok (⟨id, race, ⟨bib⟩, trim row.name⟩ :: participants)

/-- `import_roster`: the participants of a roster. The first row is line two of the file, and a
participant who is not entered yet gets a new identifier. -/
def importRoster (existing : List Participant) (race : RaceId) (newId : Nat → ParticipantId)
    (rows : List (Except String RosterRow)) : Except RosterError (List Participant) :=
  match importRows existing race newId 2 [] rows with
  | .error error => .error error
  | .ok [] => .error .noRows
  | .ok participants => .ok participants

/-- A bib that an import lets in: any text that is not empty, without blanks around it. -/
structure Admitted (bib : Bib) : Prop where
  nonempty : bib.text ≠ ""
  trimmed : trim bib.text = bib.text

/-! ## What is let in -/

/-- Trimming a trimmed text changes nothing. -/
theorem trim_trim (text : String) : trim (trim text) = trim text := by
  have hfront : ((text.toList.dropWhile isWhitespace).rdropWhile isWhitespace).dropWhile
      isWhitespace = (text.toList.dropWhile isWhitespace).rdropWhile isWhitespace := by
    rw [List.dropWhile_eq_self_iff]
    intro hlength
    -- what is left begins as the text does behind its blanks
    have hbegins := List.rdropWhile_prefix isWhitespace (text.toList.dropWhile isWhitespace)
    have hfirst := List.dropWhile_get_zero_not isWhitespace text.toList
      (Nat.lt_of_lt_of_le hlength hbegins.length_le)
    rw [hbegins.getElem hlength]
    exact hfirst
  have htrim : ∀ text : String, trim text =
      String.ofList ((text.toList.dropWhile isWhitespace).rdropWhile isWhitespace) := fun _ => rfl
  rw [htrim (trim text), htrim text, String.toList_ofList, hfront, List.rdropWhile_idempotent]

/-- What is let in behind bibs that have been seen. -/
theorem import_rows_admitted {existing : List Participant} {race : RaceId}
    {newId : Nat → ParticipantId} {line : Nat} {seen : List String}
    {rows : List (Except String RosterRow)} {participants : List Participant}
    (h : importRows existing race newId line seen rows = .ok participants) :
    (∀ participant ∈ participants, Admitted participant.bib) ∧
      (∀ participant ∈ participants, participant.bib.text ∉ seen) ∧
      (participants.map (·.bib)).Nodup := by
  induction rows generalizing line seen participants with
  | nil =>
      cases h
      exact ⟨fun _ hmem => (List.not_mem_nil hmem).elim, fun _ hmem => (List.not_mem_nil hmem).elim,
        List.nodup_nil⟩
  | cons row rows ih =>
      cases row with
      | error text => cases h
      | ok row =>
          rw [importRows] at h
          split_ifs at h with hempty hseen
          cases hrest : importRows existing race newId (line + 1) (trim row.bib :: seen) rows with
          | error error =>
              rw [hrest] at h
              cases h
          | ok others =>
              rw [hrest] at h
              cases h
              obtain ⟨hadmitted, hfresh, hnodup⟩ := ih hrest
              refine ⟨?_, ?_, ?_⟩
              · intro participant hmem
                rcases List.mem_cons.mp hmem with rfl | hmem
                · exact ⟨hempty, trim_trim row.bib⟩
                · exact hadmitted participant hmem
              · intro participant hmem
                rcases List.mem_cons.mp hmem with rfl | hmem
                · exact hseen
                · exact fun hold => hfresh participant hmem (List.mem_cons_of_mem _ hold)
              · refine List.nodup_cons.mpr ⟨?_, hnodup⟩
                intro hmem
                obtain ⟨other, hother, hbib⟩ := List.mem_map.mp hmem
                refine hfresh other hother ?_
                rw [hbib]
                exact List.mem_cons_self

/-- What an import lets in, and once each. -/
theorem import_roster_admitted {existing : List Participant} {race : RaceId}
    {newId : Nat → ParticipantId} {rows : List (Except String RosterRow)}
    {participants : List Participant}
    (h : importRoster existing race newId rows = .ok participants) :
    (∀ participant ∈ participants, Admitted participant.bib) ∧
      (participants.map (·.bib)).Nodup := by
  rw [importRoster] at h
  cases hrows : importRows existing race newId 2 [] rows with
  | error error =>
      rw [hrows] at h
      cases h
  | ok others =>
      rw [hrows] at h
      cases others with
      | nil => cases h
      | cons first others =>
          cases h
          obtain ⟨hadmitted, _, hnodup⟩ := import_rows_admitted hrows
          exact ⟨hadmitted, hnodup⟩

end Splitforge.Cli
