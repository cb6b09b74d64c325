import Splitforge.Cli.Results
import Splitforge.Cli.Roster
import Splitforge.Library.Codes
import Splitforge.Results.Places
import Mathlib.Data.Set.Function
import Std.Data.String.ToInt

/-!
# Digests and differences

A digest is the hash of a text in which each row is a bib and what the row says, behind separators
that nothing keeps out of a bib. So digests tell published results apart as comparing them does,
but for a bib that takes in rows of the other revision.
-/

namespace Splitforge.Cli

open Splitforge.Domain Splitforge.Library Splitforge.Results

/-! ## What ought to hold -/

/-- The rosters of one race at two times: a participant has one bib, and a bib one participant. -/
structure OneRoster (participants participants' : List Participant) : Prop where
  ids : (participants.map (·.id)).Nodup
  ids' : (participants'.map (·.id)).Nodup
  bibs : ∀ participant ∈ participants ++ participants', ∀ other ∈ participants ++ participants',
    participant.id = other.id ↔ participant.bib = other.bib
  admitted : ∀ participant ∈ participants ++ participants', Admitted participant.bib

/-- The name that the digest of a revision is the hash of. -/
def digestName (revision : ResultRevision) : String :=
  derivedName "result-digest" [String.ofList (revision.entries.flatMap digestOf)]

/-- A comparison of two revisions reports no change just when their digests are equal, which is
when a publication of the one behind the other counts as unchanged. -/
def Agree (newV5 : Uuid → String → Uuid) (earlier later : ResultRevision)
    (compared : Except String DiffView) : Prop :=
  ∃ view, compared = .ok view ∧ (earlier.digest newV5 = later.digest newV5 ↔ view.changed = 0) ∧
    (isChanged newV5 (some earlier) (later.digest newV5) = false ↔ view.changed = 0)

/-! ## Records in a bib -/

/-- What a digest writes of a row. -/
def record (bib : Bib) (status : ResultStatus) (time : Option Int) (place : Option Nat) :
    List Char :=
  bib.text.toList ++ unitSeparator :: status.asStr.toList ++ unitSeparator :: orDash time ++
    unitSeparator :: orDash place ++ [recordSeparator]

theorem digest_of_eq (entry : ResultEntry) :
    digestOf entry = record entry.bib entry.status entry.scoringTimeMs entry.place := rfl

/-- Neither of two characters stands in a text. -/
def Plain (text : List Char) : Prop := unitSeparator ∉ text ∧ recordSeparator ∉ text

theorem plain_of_digits {text : List Char} (h : ∀ c ∈ text, c.isDigit = true ∨ c = '-') :
    Plain text := by
  constructor
  · intro hmem
    rcases h _ hmem with hdigit | hdash
    · exact absurd hdigit (by decide)
    · exact absurd hdash (by decide)
  · intro hmem
    rcases h _ hmem with hdigit | hdash
    · exact absurd hdigit (by decide)
    · exact absurd hdash (by decide)

theorem is_digit_of_mem_repr {number : Nat} {c : Char} (h : c ∈ number.repr.toList) :
    c.isDigit = true := by
  rw [Nat.toList_repr] at h
  exact Nat.isDigit_of_mem_toDigits (by decide) (by decide) h

theorem plain_time (time : Option Int) : Plain (orDash time) := by
  refine plain_of_digits ?_
  intro c hmem
  cases time with
  | none => exact Or.inr (List.mem_singleton.mp hmem)
  | some time =>
      have hmem : c ∈ time.repr.toList := hmem
      rw [Int.repr_eq_if] at hmem
      split_ifs at hmem
      · exact Or.inl (is_digit_of_mem_repr hmem)
      · rw [String.toList_append] at hmem
        rcases List.mem_append.mp hmem with hdash | hdigit
        · exact Or.inr (List.mem_singleton.mp hdash)
        · exact Or.inl (is_digit_of_mem_repr hdigit)

theorem plain_place (place : Option Nat) : Plain (orDash place) := by
  refine plain_of_digits ?_
  intro c hmem
  cases place with
  | none => exact Or.inr (List.mem_singleton.mp hmem)
  | some place => exact Or.inl (is_digit_of_mem_repr hmem)

theorem plain_status (status : ResultStatus) : Plain status.asStr.toList := by
  cases status <;> exact ⟨by decide, by decide⟩

/-- A number or a dash tells what it stands for. -/
theorem or_dash_injective {Number : Type} [ToString Number] (hdash : ∀ number : Number,
    (toString number).toList ≠ ['-'])
    (hnumber : ∀ first second : Number, toString first = toString second → first = second) :
    Function.Injective (orDash : Option Number → List Char) := by
  intro first second heq
  cases first with
  | none =>
      cases second with
      | none => rfl
      | some second => exact absurd heq.symm (hdash second)
  | some first =>
      cases second with
      | none => exact absurd heq (hdash first)
      | some second => rw [hnumber first second (String.toList_inj.mp heq)]

theorem not_dash {number : Nat} : number.repr.toList ≠ ['-'] := by
  intro hdash
  have hmem : '-' ∈ number.repr.toList := by
    rw [hdash]
    exact List.mem_singleton_self _
  exact absurd (is_digit_of_mem_repr hmem) (by decide)

theorem or_dash_place_injective : Function.Injective (orDash : Option Nat → List Char) :=
  or_dash_injective (fun _ => not_dash) fun _ _ => Nat.repr_injective

theorem or_dash_time_injective : Function.Injective (orDash : Option Int → List Char) := by
  refine or_dash_injective ?_ fun _ _ => Int.repr_injective
  intro number hdash
  have hdash : number.repr.toList = ['-'] := hdash
  rw [Int.repr_eq_if] at hdash
  split_ifs at hdash
  · exact not_dash hdash
  · -- digits stand behind the sign
    rw [String.toList_append] at hdash
    have hnone : (-number).toNat.repr.toList = [] := (List.cons.inj hdash).2
    exact Nat.repr_ne_empty (String.toList_eq_nil_iff.mp hnone)

theorem status_injective : Function.Injective fun status : ResultStatus => status.asStr.toList := by
  intro first second heq
  cases first <;> cases second <;> first | rfl | exact absurd heq (by decide)

/-- A record tells the bib and all that it says. -/
theorem record_injective {bib bib' : Bib} {status status' : ResultStatus} {time time' : Option Int}
    {place place' : Option Nat}
    (h : record bib status time place = record bib' status' time' place') :
    bib = bib' ∧ status = status' ∧ time = time' ∧ place = place' := by
  have hrow := (List.append_inj' h rfl).1
  obtain ⟨hfront, hplace⟩ := last_separator hrow (plain_place place).1 (plain_place place').1
  obtain ⟨hfront, htime⟩ := last_separator hfront (plain_time time).1 (plain_time time').1
  obtain ⟨hbib, hstatus⟩ := last_separator hfront (plain_status status).1 (plain_status status').1
  exact ⟨Name.ext (String.toList_inj.mp hbib), status_injective hstatus,
    or_dash_time_injective htime, or_dash_place_injective hplace⟩

/-- A record that another begins with is that record, or stands at the front of its bib. -/
theorem prefix_of_record {bib bib' : Bib} {status status' : ResultStatus} {time time' : Option Int}
    {place place' : Option Nat}
    (h : record bib status time place <+: record bib' status' time' place') :
    record bib status time place = record bib' status' time' place' ∨
      record bib status time place <+: bib'.text.toList := by
  have htail : recordSeparator ∉ unitSeparator :: status'.asStr.toList ++
      unitSeparator :: orDash time' ++ unitSeparator :: orDash place' := by
    simp only [List.mem_append, List.mem_cons, not_or]
    exact ⟨⟨⟨by decide, (plain_status status').2⟩, by decide, (plain_time time').2⟩, by decide,
      (plain_place place').2⟩
  have hshape : record bib' status' time' place' = bib'.text.toList ++
      (unitSeparator :: status'.asStr.toList ++ unitSeparator :: orDash time' ++
        unitSeparator :: orDash place') ++ [recordSeparator] := by
    unfold record
    simp only [List.append_assoc]
  rw [hshape] at h ⊢
  exact prefix_of_separated htail h

/-! ## What is looked at -/

/-- What a digest and a comparison look at: whose row it is, the bib, the status, the time and the
place. -/
def shown (entry : ResultEntry) :
    ParticipantId × Bib × ResultStatus × Option Int × Option Nat :=
  (entry.participant, entry.bib, entry.status, entry.scoringTimeMs, entry.place)

/-- The order of a results sheet, by what is looked at. -/
def shownKey (row : ParticipantId × Bib × ResultStatus × Option Int × Option Nat) :
    Bool ×ₗ Nat ×ₗ ResultStatus ×ₗ (Nat ×ₗ Nat ×ₗ String) ×ₗ ParticipantId :=
  toLex (row.2.2.2.2.isNone, toLex (row.2.2.2.2.getD 0,
    toLex (row.2.2.1, toLex (bibOrder row.2.1, row.1))))

/-- A results sheet of a roster: a row for each participant, in the order of a sheet. -/
structure Sheet (participants : List Participant) (entries : List ResultEntry) : Prop where
  rows : (entries.map fun entry => (entry.participant, entry.bib)).Perm
    (participants.map fun participant => (participant.id, participant.bib))
  sorted : (entries.map shown).Pairwise fun first second => shownKey first ≤ shownKey second

variable {participants participants' : List Participant} {entries entries' : List ResultEntry}

theorem bib_placed (times : List (WithBot Int)) (entry : ResultEntry) :
    (placed times entry).bib = entry.bib := by
  unfold placed
  split <;> rfl

/-- What a scoreboard returns is a sheet of its roster. -/
theorem sheet_of_scoreboard {input : ScoringInput} {untrusted : List TimingEventId}
    {steps : List ClockStep} (h : scoreboard input untrusted steps = .ok entries) :
    Sheet input.participants entries := by
  rw [scoreboard] at h
  cases hscore : score input with
  | error error =>
      rw [hscore] at h
      cases h
  | ok scored =>
      rw [hscore] at h
      cases h
      constructor
      · rw [flagClock, List.map_map]
        obtain ⟨finish, start, _, rfl⟩ := score_eq_ok hscore
        refine ((sort_by_key_perm _ _).map _).trans (List.Perm.of_eq ?_)
        rw [assign_places_eq, List.map_map, buildEntries, List.map_map]
        refine List.map_congr_left fun participant _ => ?_
        exact Prod.ext (participant_placed _) (bib_placed _ _)
      · rw [flagClock, List.map_map]
        exact List.pairwise_map.mpr (published_of_score hscore).1.sorted

/-- The participants of a sheet are those of its roster, once each. -/
theorem Sheet.nodup (h : Sheet participants entries)
    (hids : (participants.map (·.id)).Nodup) : (entries.map (·.participant)).Nodup := by
  have hperm := h.rows.map Prod.fst
  rw [List.map_map, List.map_map] at hperm
  exact hperm.nodup_iff.mpr hids

/-- A row of a sheet is that of a participant under their bib. -/
theorem Sheet.entered (h : Sheet participants entries) {entry : ResultEntry}
    (hentry : entry ∈ entries) : ∃ participant ∈ participants,
      participant.id = entry.participant ∧ participant.bib = entry.bib := by
  obtain ⟨participant, hmem, heq⟩ :=
    List.mem_map.mp (h.rows.mem_iff.mp (List.mem_map_of_mem hentry))
  exact ⟨participant, hmem, congrArg Prod.fst heq, congrArg Prod.snd heq⟩

/-- Rows of one participant, or under one bib, are of one participant under one bib. -/
theorem OneRoster.same_iff (hroster : OneRoster participants participants')
    (h : Sheet participants entries) (h' : Sheet participants' entries')
    {entry entry' : ResultEntry} (hentry : entry ∈ entries) (hentry' : entry' ∈ entries') :
    entry.participant = entry'.participant ↔ entry.bib = entry'.bib := by
  obtain ⟨participant, hmem, hid, hbib⟩ := h.entered hentry
  obtain ⟨participant', hmem', hid', hbib'⟩ := h'.entered hentry'
  rw [← hid, ← hid', ← hbib, ← hbib']
  exact hroster.bibs participant (List.mem_append_left _ hmem) participant'
    (List.mem_append_right _ hmem')

/-- Sheets that show the same rows show them in the same order. -/
theorem Sheet.eq_of_mem_iff (h : Sheet participants entries) (h' : Sheet participants' entries')
    (hids : (participants.map (·.id)).Nodup) (hids' : (participants'.map (·.id)).Nodup)
    (hmem : ∀ row, row ∈ entries.map shown ↔ row ∈ entries'.map shown) :
    entries.map shown = entries'.map shown := by
  have hfst : ∀ {entries : List ResultEntry}, (entries.map (·.participant)).Nodup →
      ((entries.map shown).map Prod.fst).Nodup := by
    intro entries hnodup
    rw [List.map_map]
    exact hnodup
  have hnodup := hfst (h.nodup hids)
  have hperm : (entries.map shown).Perm (entries'.map shown) :=
    (List.perm_ext_iff_of_nodup hnodup.of_map (hfst (h'.nodup hids')).of_map).mpr hmem
  refine @eq_of_sorted _ _ _ shownKey _ _ ?_ hperm h.sorted h'.sorted
  -- the key of a row ends in its participant
  refine List.Nodup.of_map (fun key => (ofLex (ofLex (ofLex (ofLex key).2).2).2).2) ?_
  rw [List.map_map]
  exact hnodup

/-! ## Comparing -/

/-- Looking a participant's row up finds it. -/
theorem entry_of_eq_some (hnodup : (entries.map (·.participant)).Nodup) {entry : ResultEntry}
    (hentry : entry ∈ entries) : entryOf entries entry.participant = some entry :=
  find_key_eq hnodup hentry

theorem mem_of_entry_of {participant : ParticipantId} {entry : ResultEntry}
    (h : entryOf entries participant = some entry) :
    entry ∈ entries ∧ entry.participant = participant := by
  have hkey := List.find?_some h
  rw [decide_eq_true_eq] at hkey
  exact ⟨List.mem_of_find?_eq_some h, hkey⟩

/-- A row is not reported just when the participant's earlier row says the same. -/
theorem change_of_eq_none {entry : ResultEntry} : changeOf entries entry = none ↔
    ∃ before, entryOf entries entry.participant = some before ∧
      before.status = entry.status ∧ before.place = entry.place ∧
        before.scoringTimeMs = entry.scoringTimeMs := by
  rw [changeOf]
  cases hbefore : entryOf entries entry.participant with
  | none => simp
  | some before => simp [isUnchanged]

theorem removal_of_eq_none {entry : ResultEntry} : removalOf entries entry = none ↔
    ∃ after, entryOf entries entry.participant = some after := by
  rw [removalOf]
  cases entryOf entries entry.participant with
  | none => simp
  | some after => simp

/-- A comparison reports nothing just when the two sheets show the same. -/
theorem no_change_iff (hroster : OneRoster participants participants')
    (h : Sheet participants entries) (h' : Sheet participants' entries') :
    ((∀ entry ∈ entries', changeOf entries entry = none) ∧
      ∀ entry ∈ entries, removalOf entries' entry = none) ↔
    entries.map shown = entries'.map shown := by
  have hnodup := h.nodup hroster.ids
  have hnodup' := h'.nodup hroster.ids'
  constructor
  · intro ⟨hchanges, hremovals⟩
    have hshown : ∀ entry ∈ entries', ∃ before ∈ entries, shown before = shown entry ∧
        before.participant = entry.participant := by
      intro entry hentry
      obtain ⟨before, hbefore, hstatus, hplace, htime⟩ :=
        change_of_eq_none.mp (hchanges entry hentry)
      obtain ⟨hmem, hwho⟩ := mem_of_entry_of hbefore
      have hbib := (hroster.same_iff h h' hmem hentry).mp hwho
      exact ⟨before, hmem, by rw [shown, hwho, hbib, hstatus, hplace, htime]; rfl, hwho⟩
    refine h.eq_of_mem_iff h' hroster.ids hroster.ids' ?_
    intro row
    constructor
    · intro hrow
      obtain ⟨entry, hentry, rfl⟩ := List.mem_map.mp hrow
      obtain ⟨after, hafter⟩ := removal_of_eq_none.mp (hremovals entry hentry)
      obtain ⟨hmem, hwho⟩ := mem_of_entry_of hafter
      -- the later row of the participant says what an earlier one says, which is this one
      obtain ⟨before, hbefore, hshown, hwho'⟩ := hshown after hmem
      have hsame := List.inj_on_of_nodup_map hnodup hbefore hentry (hwho'.trans hwho)
      rw [← hsame, hshown]
      exact List.mem_map_of_mem hmem
    · intro hrow
      obtain ⟨entry, hentry, rfl⟩ := List.mem_map.mp hrow
      obtain ⟨before, hbefore, hshown, _⟩ := hshown entry hentry
      rw [← hshown]
      exact List.mem_map_of_mem hbefore
  · intro heq
    constructor
    · intro entry hentry
      have hmem : shown entry ∈ entries.map shown := by
        rw [heq]
        exact List.mem_map_of_mem hentry
      obtain ⟨before, hbefore, hshown⟩ := List.mem_map.mp hmem
      obtain ⟨hwho, _, hstatus, htime, hplace⟩ :
          before.participant = entry.participant ∧ before.bib = entry.bib ∧
            before.status = entry.status ∧ before.scoringTimeMs = entry.scoringTimeMs ∧
              before.place = entry.place := by
        simpa [shown] using hshown
      rw [change_of_eq_none, ← hwho]
      exact ⟨before, entry_of_eq_some hnodup hbefore, hstatus, hplace, htime⟩
    · intro entry hentry
      have hmem : shown entry ∈ entries'.map shown := by
        rw [← heq]
        exact List.mem_map_of_mem hentry
      obtain ⟨after, hafter, hshown⟩ := List.mem_map.mp hmem
      have hwho : after.participant = entry.participant := congrArg Prod.fst hshown
      rw [removal_of_eq_none, ← hwho]
      exact ⟨after, entry_of_eq_some hnodup' hafter⟩

/-! ## Digests -/

/-- Behind rows that both sheets write alike, a bib of the one begins with the record of the row
that the other has in its place, and the sheets go on alike. -/
def TakesIn (entries entries' : List ResultEntry) : Prop :=
  ∃ before row rest before' row' rest', entries = before ++ row :: rest ∧
    entries' = before' ++ row' :: rest' ∧ before.map digestOf = before'.map digestOf ∧
    digestOf row' <+: row.bib.text.toList ∧
    (row :: rest).flatMap digestOf = (row' :: rest').flatMap digestOf

/-- A bib without the separator that ends a record takes in none. -/
theorem not_takes_in (h : ∀ row ∈ entries, recordSeparator ∉ row.bib.text.toList) :
    ¬ TakesIn entries entries' := by
  intro ⟨before, row, rest, _, row', _, hentries, _, _, hbegins, _⟩
  have hmem : row ∈ entries := by
    rw [hentries]
    exact List.mem_append_right _ List.mem_cons_self
  exact h row hmem (hbegins.subset (List.mem_append_right _ (List.mem_singleton_self _)))

theorem nil_not_mem_records (entries : List ResultEntry) : [] ∉ entries.map digestOf := by
  intro hmem
  obtain ⟨entry, _, hnil⟩ := List.mem_map.mp hmem
  exact absurd (List.append_eq_nil_iff.mp hnil).2 (List.cons_ne_nil _ _)

/-- Sheets with the same records show the same: a record tells all of a row but whose it is, and
the bib in it tells that. -/
theorem shown_eq_of_map_digest_of (hroster : OneRoster participants participants')
    (h : Sheet participants entries) (h' : Sheet participants' entries')
    (heq : entries.map digestOf = entries'.map digestOf) :
    entries.map shown = entries'.map shown := by
  have hlength : entries.length = entries'.length := by
    simpa using congrArg List.length heq
  refine List.ext_getElem (by simpa using hlength) ?_
  intro number hnumber hnumber'
  rw [List.length_map] at hnumber hnumber'
  rw [List.getElem_map, List.getElem_map]
  have hrecord : digestOf entries[number] = digestOf entries'[number] := by
    have hget := List.getElem_of_eq heq (by simpa using hnumber)
    rwa [List.getElem_map, List.getElem_map] at hget
  obtain ⟨hbib, hstatus, htime, hplace⟩ := record_injective hrecord
  have hwho := (hroster.same_iff h h' (List.getElem_mem hnumber)
    (List.getElem_mem hnumber')).mpr hbib
  rw [shown, shown, hwho, hbib, hstatus, htime, hplace]

/-- Rows that read the same have the same records, or a bib takes in a row. -/
theorem records_eq_or_takes_in (heq : entries.flatMap digestOf = entries'.flatMap digestOf) :
    entries.map digestOf = entries'.map digestOf ∨ TakesIn entries entries' ∨
      TakesIn entries' entries := by
  rw [List.flatMap_def, List.flatMap_def] at heq
  rcases eq_or_part_of_flatten_eq (nil_not_mem_records _) (nil_not_mem_records _) heq with
    hsame | ⟨records, first, second, others, others', hentries, hentries', hne, hfront, hbehind⟩
  · exact Or.inl hsame
  · obtain ⟨before, behind, rfl, rfl, hrow⟩ := List.map_eq_append_iff.mp hentries
    obtain ⟨row, rest, rfl, rfl, rfl⟩ := List.map_eq_cons_iff.mp hrow
    obtain ⟨before', behind', rfl, hbefore, hrow'⟩ := List.map_eq_append_iff.mp hentries'
    obtain ⟨row', rest', rfl, rfl, rfl⟩ := List.map_eq_cons_iff.mp hrow'
    rw [← List.flatMap_def, ← List.flatMap_def] at hbehind
    rcases hfront with hfront | hfront
    · have hheld := (prefix_of_record hfront).resolve_left hne
      exact Or.inr (Or.inr ⟨before', row', rest', before, row, rest, rfl, rfl, hbefore, hheld,
        hbehind.symm⟩)
    · have hheld := (prefix_of_record hfront).resolve_left (Ne.symm hne)
      exact Or.inr (Or.inl ⟨before, row, rest, before', row', rest', rfl, rfl, hbefore.symm, hheld,
        hbehind⟩)

/-- Sheets that read the same show the same, or a bib takes in a row. -/
theorem shown_eq_or_takes_in (hroster : OneRoster participants participants')
    (h : Sheet participants entries) (h' : Sheet participants' entries')
    (heq : entries.flatMap digestOf = entries'.flatMap digestOf) :
    entries.map shown = entries'.map shown ∨ TakesIn entries entries' ∨
      TakesIn entries' entries := by
  rcases records_eq_or_takes_in heq with hsame | htakes
  · exact Or.inl (shown_eq_of_map_digest_of hroster h h' hsame)
  · exact Or.inr htakes

/-- Where a bib takes in a row, the sheets read the same and show different rows. -/
theorem TakesIn.reads (h : TakesIn entries entries') :
    entries.flatMap digestOf = entries'.flatMap digestOf ∧
      entries.map shown ≠ entries'.map shown := by
  obtain ⟨before, row, rest, before', row', rest', rfl, rfl, hbefore, hbegins, hbehind⟩ := h
  constructor
  · rw [List.flatMap_append, List.flatMap_append, hbehind, List.flatMap_def, hbefore,
      ← List.flatMap_def]
  · intro heq
    rw [List.map_append, List.map_append, List.map_cons, List.map_cons] at heq
    have hlength : (before.map shown).length = (before'.map shown).length := by
      simpa using congrArg List.length hbefore
    obtain ⟨_, hrows⟩ := List.append_inj heq hlength
    have hbib : row.bib = row'.bib := congrArg (·.2.1) (List.cons.inj hrows).1
    -- the bib would be longer than itself
    have hle := hbegins.length_le
    rw [hbib, digest_of_eq, record] at hle
    simp only [List.length_append, List.length_cons] at hle
    omega

/-- The text of a digest is made of what is shown. -/
theorem records_eq_of_shown (heq : entries.map shown = entries'.map shown) :
    entries.flatMap digestOf = entries'.flatMap digestOf := by
  have hrecord : digestOf =
      (fun row : ParticipantId × Bib × ResultStatus × Option Int × Option Nat =>
        record row.2.1 row.2.2.1 row.2.2.2.1 row.2.2.2.2) ∘ shown := rfl
  rw [List.flatMap_def, List.flatMap_def, hrecord, ← List.map_map, heq, List.map_map]

theorem simple_injective : Function.Injective Uuid.simple := by
  intro first second heq
  have hbound : ∀ id : Uuid, id.value.val < 16 ^ 32 := fun id => id.value.isLt
  have hnumber := congrArg (fun text => Hex.toNat text.toList) heq
  simp only [Uuid.simple, String.toList_ofList, Hex.to_nat_of_nat (hbound _)] at hnumber
  exact Uuid.ext (Fin.ext (Option.some.inj hnumber))

/-- Where the hash tells two names apart, equal digests are equal texts. -/
theorem digest_eq_iff {newV5 : Uuid → String → Uuid} {first second : ResultRevision}
    (hhash : Set.InjOn (newV5 splitforgeNamespace) {digestName first, digestName second}) :
    first.digest newV5 = second.digest newV5 ↔
      first.entries.flatMap digestOf = second.entries.flatMap digestOf := by
  constructor
  · intro hdigest
    have hname : digestName first = digestName second :=
      hhash (Set.mem_insert _ _) (Set.mem_insert_of_mem _ rfl) (simple_injective hdigest)
    have hlist := congrArg String.toList hname
    simp only [digestName, derivedName, String.toList_ofList, List.flatMap_cons, List.flatMap_nil,
      List.append_nil] at hlist
    exact (List.cons.inj (List.append_cancel_left hlist)).2
  · intro htext
    rw [ResultRevision.digest, ResultRevision.digest, htext]

/-- A comparison of two sheets reports no change just when they show the same. -/
theorem changed_eq_zero_iff {store : ResultStore} {race : Race} {fromNumber toNumber : Nat}
    {earlier later : ResultRevision}
    (hearlier : store.revision race.id fromNumber = some earlier)
    (hlater : store.revision race.id toNumber = some later)
    (hroster : OneRoster participants participants') (h : Sheet participants earlier.entries)
    (h' : Sheet participants' later.entries) :
    ∃ view, diff store race fromNumber toNumber = .ok view ∧
      (view.changed = 0 ↔ earlier.entries.map shown = later.entries.map shown) := by
  rw [diff, hearlier, hlater]
  refine ⟨_, rfl, ?_⟩
  rw [← no_change_iff hroster h h', List.length_eq_zero_iff, List.append_eq_nil_iff,
    List.filterMap_eq_nil_iff, List.filterMap_eq_nil_iff]

/-- Two runners cross the finish some seconds after the gun. -/
def twoRunners (bib : String) (first second : UInt8) : ScoringInput where
  participants := [sampleParticipant 1 "A", sampleParticipant 2 bib]
  checkpoints := [⟨⟨.fromU128 51⟩, ⟨.fromU128 90⟩, "finish", .finish, 1⟩]
  timingEvents := [sampleCrossing 1 1 51 first, sampleCrossing 2 2 51 second]
  declarations := []
  policy := ⟨.gun, ⟨3000, .first, none, ∅⟩, some (Domain.second 0)⟩

/-- What is published of them. -/
def runnersRevision (number : Nat) (bib : String) (first second : UInt8) : ResultRevision where
  race := ⟨.fromU128 90⟩
  number := number
  status := .provisional
  generatedAt := Domain.second 100
  reason := "results"
  policy := (twoRunners bib first second).policy
  entries := flagClock (sortForPublication (assignPlaces
    (buildEntries (twoRunners bib first second) ⟨.fromU128 51⟩ none))) [] []
    (some (Domain.second 0))

/-- The runners in the one order and then in the other. -/
def swapped (bib : String) : ResultStore :=
  ⟨[⟨runnersRevision 1 bib 10 20, "operator"⟩, ⟨runnersRevision 2 bib 20 10, "operator"⟩]⟩

/-- The race of the two. -/
def runnersRace : Race := ⟨⟨.fromU128 90⟩, "race", none, 1⟩

/-- A bib that holds the record of the other runner's victory. -/
def recordBib : String :=
  String.ofList (record ⟨"A"⟩ .finished (some 10000) (some 1) ++ ['A'])

theorem scoreboard_two_runners (number : Nat) (bib : String) (first second : UInt8) :
    scoreboard (twoRunners bib first second) [] [] =
      .ok (runnersRevision number bib first second).entries := rfl

/-- Two runners with bibs that are not the same are one roster. -/
theorem one_roster_two_runners {bib : String} (hbib : bib ≠ "A") (hadmitted : Admitted ⟨bib⟩)
    (first second first' second' : UInt8) : OneRoster (twoRunners bib first second).participants
      (twoRunners bib first' second').participants := by
  have hentered : ∀ participant ∈ (twoRunners bib first second).participants ++
      (twoRunners bib first' second').participants,
      participant = sampleParticipant 1 "A" ∨ participant = sampleParticipant 2 bib := by
    intro participant hmem
    rcases List.mem_append.mp hmem with hmem | hmem
    · simpa [twoRunners] using hmem
    · simpa [twoRunners] using hmem
  have hdistinct : (sampleParticipant 1 "A").bib ≠ (sampleParticipant 2 bib).bib :=
    fun heq => hbib (congrArg Name.text heq).symm
  have hids : (sampleParticipant 1 "A").id ≠ (sampleParticipant 2 bib).id := by
    show (⟨.fromU128 1⟩ : ParticipantId) ≠ ⟨.fromU128 2⟩
    decide
  have hnodup : [(sampleParticipant 1 "A").id, (sampleParticipant 2 bib).id].Nodup := by
    simpa using hids
  refine ⟨hnodup, hnodup, ?_, ?_⟩
  · intro participant hmem other hother
    rcases hentered participant hmem with rfl | rfl
    · rcases hentered other hother with rfl | rfl
      · exact iff_of_true rfl rfl
      · exact iff_of_false hids hdistinct
    · rcases hentered other hother with rfl | rfl
      · exact iff_of_false hids.symm hdistinct.symm
      · exact iff_of_true rfl rfl
  · intro participant hmem
    rcases hentered participant hmem with rfl | rfl
    · exact ⟨by decide, by decide⟩
    · exact hadmitted

/-- A hash of short names. -/
def wordHash (name : String) : Uuid :=
  .fromU128 (name.toList.foldl (fun hash c => hash * 31 + c.toNat) 0)

end Splitforge.Cli
