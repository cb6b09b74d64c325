import Mathlib.Data.List.Induction
import Mathlib.Data.List.Nodup

/-!
# Saved rows

A save of a key that a table does not have adds a row, and any other amends the row that is there.
What a table that was only ever saved to holds is told by the saves alone: by the first save of
each key and what the later ones amended.
-/

namespace Splitforge.Library

/-- The last save of a key. -/
def LastSave {Change Key : Type} [DecidableEq Key] (key : Change → Key) (changes : List Change)
    (wanted : Key) (last : Change) : Prop :=
  (changes.filter fun change => key change = wanted).getLast? = some last

/-- The first and the last save of a key. -/
structure FirstLast {Change Key : Type} [DecidableEq Key] (key : Change → Key)
    (changes : List Change) (wanted : Key) (first last : Change) : Prop where
  first : (changes.find? fun change => key change = wanted) = some first
  last : LastSave key changes wanted last

section FirstLast

variable {Saved Change Key : Type} [DecidableEq Key] {key : Change → Key} {changes : List Change}
variable {wanted : Key} {first last : Change}

/-- The last save of a key has that key. -/
theorem LastSave.mem (h : LastSave key changes wanted last) :
    last ∈ changes ∧ key last = wanted := by
  have hmem := List.mem_filter.mp (List.mem_of_getLast? h)
  exact ⟨hmem.1, of_decide_eq_true hmem.2⟩

/-- The first save of a key has that key. -/
theorem FirstLast.key_first (h : FirstLast key changes wanted first last) : key first = wanted := by
  simpa using List.find?_some h.first

/-- A key that was saved has a last save. -/
theorem exists_last_save {change : Change} (hmem : change ∈ changes) :
    ∃ last, LastSave key changes (key change) last := by
  have hfilter : change ∈ changes.filter fun other => key other = key change :=
    List.mem_filter.mpr ⟨hmem, decide_eq_true rfl⟩
  exact Option.isSome_iff_exists.mp (List.getLast?_isSome.mpr (List.ne_nil_of_mem hfilter))

/-- A key that has a last save has a first. -/
theorem LastSave.exists_first (h : LastSave key changes wanted last) :
    ∃ first, FirstLast key changes wanted first last := by
  obtain ⟨hmem, hkey⟩ := h.mem
  have hsome : (changes.find? fun change => key change = wanted).isSome :=
    List.find?_isSome.mpr ⟨last, hmem, decide_eq_true hkey⟩
  obtain ⟨first, hfirst⟩ := Option.isSome_iff_exists.mp hsome
  exact ⟨first, hfirst, h⟩

/-- The last save of what was made of other things is made of the last of those. -/
theorem last_save_map {said : Saved → Change} {saves : List Saved} :
    LastSave key (saves.map said) wanted last ↔
      ∃ saved, LastSave (fun saved => key (said saved)) saves wanted saved ∧ last = said saved := by
  rw [LastSave, List.filter_map, List.getLast?_map, Option.map_eq_some_iff]
  exact exists_congr fun saved => and_congr_right fun _ => eq_comm

/-- The first and the last save of what was made of other things. -/
theorem first_last_map {said : Saved → Change} {saves : List Saved} :
    FirstLast key (saves.map said) wanted first last ↔
      ∃ before after, FirstLast (fun saved => key (said saved)) saves wanted before after ∧
        first = said before ∧ last = said after := by
  constructor
  · intro h
    obtain ⟨hfirst, hlast⟩ := h
    obtain ⟨after, hafter, rfl⟩ := last_save_map.mp hlast
    rw [List.find?_map, Option.map_eq_some_iff] at hfirst
    obtain ⟨before, hbefore, rfl⟩ := hfirst
    exact ⟨before, after, ⟨hbefore, hafter⟩, rfl, rfl⟩
  · intro h
    obtain ⟨before, after, ⟨hbefore, hafter⟩, rfl, rfl⟩ := h
    refine ⟨?_, last_save_map.mpr ⟨after, hafter, rfl⟩⟩
    rw [List.find?_map, Option.map_eq_some_iff]
    exact ⟨before, hbefore, rfl⟩

end FirstLast

/-- How saves make the rows of a table. -/
structure Saves (Row Change Key : Type) where
  keyOf : Row → Key
  key : Change → Key
  fresh : Change → Row
  amend : Row → Change → Row
  key_fresh : ∀ change, keyOf (fresh change) = key change
  key_amend : ∀ row change, keyOf row = key change → keyOf (amend row change) = key change

namespace Saves

variable {Row Change Key : Type} [DecidableEq Key] (saves : Saves Row Change Key)

/-- The rows after a save. -/
def put (change : Change) : List Row → List Row
  | [] => [saves.fresh change]
  | row :: rows =>
      if saves.keyOf row = saves.key change then saves.amend row change :: rows
      else row :: put change rows

/-- What one save makes of the row there was of a key. -/
def toldBy (held : Option Row) (change : Change) : Row :=
  held.elim (saves.fresh change) fun row => saves.amend row change

/-- What saves, oldest first, make of a key. -/
def told (changes : List Change) (wanted : Key) : Option Row :=
  changes.foldl (fun held change =>
    if saves.key change = wanted then some (saves.toldBy held change) else held) none

/-- The rows of a table are those the saves tell of. -/
structure Holds (changes : List Change) (rows : List Row) : Prop where
  nodup : (rows.map saves.keyOf).Nodup
  mem : ∀ row, row ∈ rows ↔ saves.told changes (saves.keyOf row) = some row

variable {saves} {changes : List Change} {rows : List Row} {change : Change} {row : Row}
variable {wanted : Key}

/-- What one save more makes of a key. -/
theorem told_append_one (changes : List Change) (change : Change) (wanted : Key) :
    saves.told (changes ++ [change]) wanted =
      if saves.key change = wanted then some (saves.toldBy (saves.told changes wanted) change)
      else saves.told changes wanted := by
  rw [told, List.foldl_append]
  rfl

/-- What is told of a key has that key. -/
theorem key_told (h : saves.told changes wanted = some row) : saves.keyOf row = wanted := by
  induction changes using List.reverseRecOn generalizing row with
  | nil => cases h
  | append_singleton changes change ih =>
      rw [told_append_one] at h
      split_ifs at h with hkey
      · cases htold : saves.told changes wanted with
        | none =>
            rw [htold] at h
            rw [← Option.some.inj h, ← hkey]
            exact saves.key_fresh change
        | some before =>
            rw [htold] at h
            rw [← Option.some.inj h, ← hkey]
            exact saves.key_amend before change ((ih htold).trans hkey.symm)
      · exact ih h

/-- What some saves set and the others leave is what the last of those said, or else what a row
starts with. -/
theorem part_told {Part : Type} {part : Row → Part} {said : Change → Option Part} {initial : Part}
    (hfresh : ∀ change ∈ changes, part (saves.fresh change) = (said change).getD initial)
    (hamend : ∀ change ∈ changes, ∀ row,
      part (saves.amend row change) = (said change).getD (part row)) :
    ((saves.told changes wanted).map part).getD initial =
      (((changes.filter fun change => saves.key change = wanted).filterMap said).getLast?).getD
        initial := by
  induction changes using List.reverseRecOn with
  | nil => rfl
  | append_singleton changes change ih =>
      have ih := ih (fun change hchange => hfresh change (List.mem_append_left _ hchange))
        fun change hchange => hamend change (List.mem_append_left _ hchange)
      have hnew : change ∈ changes ++ [change] := List.mem_append_right _ List.mem_cons_self
      rw [told_append_one, List.filter_append, List.filter_singleton, List.filterMap_append,
        List.getLast?_append]
      by_cases hkey : saves.key change = wanted
      · rw [if_pos hkey, toldBy]
        cases hsaid : said change with
        | none =>
            have hnone : [change].filterMap said = [] := by simp [hsaid]
            rw [decide_eq_true hkey, cond_true, hnone, List.getLast?_nil, Option.none_or, ← ih]
            cases saves.told changes wanted with
            | none => simp [hfresh change hnew, hsaid]
            | some row => simp [hamend change hnew, hsaid]
        | some part =>
            cases saves.told changes wanted with
            | none => simp [hkey, hsaid, hfresh change hnew]
            | some row => simp [hkey, hsaid, hamend change hnew]
      · rw [if_neg hkey, ih]
        simp [hkey]

/-- Where every save sets the same part of a row, what is told of a key is told by the first save
of it and the last. -/
theorem told_eq {shape : Change → Change → Row} (hfresh : ∀ change,
      saves.fresh change = shape change change)
    (hamend : ∀ first last change,
      saves.amend (shape first last) change = shape first change) :
    saves.told changes wanted =
      (changes.find? fun change => saves.key change = wanted).bind fun first =>
        ((changes.filter fun change => saves.key change = wanted).getLast?).map (shape first) := by
  induction changes using List.reverseRecOn with
  | nil => rfl
  | append_singleton changes change ih =>
      rw [told_append_one, List.filter_append, List.getLast?_append, List.filter_singleton,
        List.find?_append]
      by_cases hkey : saves.key change = wanted
      · rw [if_pos hkey, ih, toldBy]
        cases hfind : changes.find? fun change => saves.key change = wanted with
        | none => simp [hkey, hfresh]
        | some first =>
            have hmem : first ∈ changes.filter fun change => saves.key change = wanted :=
              List.mem_filter.mpr
                ⟨List.mem_of_find?_eq_some hfind, by simpa using List.find?_some hfind⟩
            obtain ⟨last, hlast⟩ := Option.isSome_iff_exists.mp
              (List.getLast?_isSome.mpr (List.ne_nil_of_mem hmem))
            simp [hkey, hlast, hamend]
      · rw [if_neg hkey, ih]
        simp [hkey]

/-- What is told of a key, by its first save and its last. -/
theorem told_iff (shape : Change → Change → Row)
    (hfresh : ∀ change, saves.fresh change = shape change change)
    (hamend : ∀ first last change,
      saves.amend (shape first last) change = shape first change) :
    saves.told changes wanted = some row ↔
      ∃ first last, FirstLast saves.key changes wanted first last ∧ row = shape first last := by
  rw [told_eq hfresh hamend, Option.bind_eq_some_iff]
  constructor
  · intro h
    obtain ⟨first, hfirst, h⟩ := h
    obtain ⟨last, hlast, rfl⟩ := Option.map_eq_some_iff.mp h
    exact ⟨first, last, ⟨hfirst, hlast⟩, rfl⟩
  · intro h
    obtain ⟨first, last, ⟨hfirst, hlast⟩, rfl⟩ := h
    exact ⟨first, hfirst, Option.map_eq_some_iff.mpr ⟨last, hlast, rfl⟩⟩

/-- The same, where what is saved is made of other things. -/
theorem told_map_iff {Saved : Type} {said : Saved → Change} {saved : List Saved}
    (shape : Change → Change → Row) (hfresh : ∀ change, saves.fresh change = shape change change)
    (hamend : ∀ first last change,
      saves.amend (shape first last) change = shape first change) :
    saves.told (saved.map said) wanted = some row ↔ ∃ first last,
      FirstLast (fun saved => saves.key (said saved)) saved wanted first last ∧
        row = shape (said first) (said last) := by
  rw [told_iff shape hfresh hamend]
  constructor
  · intro h
    obtain ⟨_, _, hsaves, hrow⟩ := h
    obtain ⟨first, last, hfirst, rfl, rfl⟩ := first_last_map.mp hsaves
    exact ⟨first, last, hfirst, hrow⟩
  · intro h
    obtain ⟨first, last, hsaves, hrow⟩ := h
    exact ⟨_, _, first_last_map.mpr ⟨first, last, hsaves, rfl, rfl⟩, hrow⟩

/-- Where a save sets the whole row, what is told of a key is what was saved last. -/
theorem told_map_last {Saved : Type} {said : Saved → Change} {saved : List Saved}
    {whole : Change → Row} (hfresh : ∀ change, saves.fresh change = whole change)
    (hamend : ∀ row change, saves.amend row change = whole change) :
    saves.told (saved.map said) wanted =
      ((saved.filter fun saved => saves.key (said saved) = wanted).getLast?).map
        fun saved => whole (said saved) := by
  ext row
  rw [told_map_iff (fun _ last => whole last) hfresh fun _ _ change => hamend _ change,
    Option.map_eq_some_iff]
  constructor
  · intro h
    obtain ⟨_, last, hsaves, rfl⟩ := h
    exact ⟨last, hsaves.last, rfl⟩
  · intro h
    obtain ⟨last, hlast, rfl⟩ := h
    obtain ⟨first, hsaves⟩ := LastSave.exists_first hlast
    exact ⟨first, last, hsaves, rfl⟩

/-- A save adds a row for a key that is not there. -/
theorem length_put (rows : List Row) (change : Change) :
    (saves.put change rows).length =
      if (rows.find? fun row => saves.keyOf row = saves.key change).isSome then rows.length
      else rows.length + 1 := by
  induction rows with
  | nil => rfl
  | cons row rows ih =>
      rw [put, List.find?_cons]
      by_cases hkey : saves.keyOf row = saves.key change
      · simp [hkey]
      · rw [if_neg hkey, decide_eq_false hkey, List.length_cons, ih, List.length_cons]
        split_ifs <;> rfl

/-- An empty table was never saved to. -/
theorem holds_nil : saves.Holds [] [] :=
  ⟨List.nodup_nil, fun row => by simp [told]⟩

/-- A row of a table is what is told of its key. -/
theorem Holds.find (h : saves.Holds changes rows) (wanted : Key) :
    (rows.find? fun row => saves.keyOf row = wanted) = saves.told changes wanted := by
  cases htold : saves.told changes wanted with
  | none =>
      rw [List.find?_eq_none]
      intro row hrow hkey
      have hthere := (h.mem row).mp hrow
      rw [of_decide_eq_true hkey, htold] at hthere
      cases hthere
  | some row =>
      have hkey := key_told htold
      have hrow : row ∈ rows := (h.mem row).mpr (hkey ▸ htold)
      cases hfind : rows.find? fun row => saves.keyOf row = wanted with
      | none =>
          rw [List.find?_eq_none] at hfind
          exact absurd (decide_eq_true hkey) (hfind row hrow)
      | some other =>
          have hother := (h.mem other).mp (List.mem_of_find?_eq_some hfind)
          have hsame : saves.keyOf other = wanted := by simpa using List.find?_some hfind
          rw [hsame, htold] at hother
          exact hother.symm

/-- What no save amends stays as the first save of a key said it. -/
theorem told_append_part {Part : Type} {part : Row → Part}
    (hamend : ∀ row change, saves.keyOf row = saves.key change →
      part (saves.amend row change) = part row)
    (htold : saves.told changes wanted = some row) (more : List Change) :
    ∃ kept, saves.told (changes ++ more) wanted = some kept ∧ part kept = part row := by
  induction more using List.reverseRecOn with
  | nil => exact ⟨row, by rwa [List.append_nil], rfl⟩
  | append_singleton more change ih =>
      obtain ⟨held, hheld, hpart⟩ := ih
      rw [← List.append_assoc, told_append_one, hheld]
      split_ifs with hkey
      · exact ⟨_, rfl, (hamend held change ((key_told hheld).trans hkey.symm)).trans hpart⟩
      · exact ⟨held, rfl, hpart⟩

/-- A row stays in a table that is saved to further, and keeps what no save amends. -/
theorem Holds.stays {Part : Type} (part : Row → Part) {changes' : List Change} {rows' : List Row}
    (h : saves.Holds changes rows) (h' : saves.Holds changes' rows') (hmore : changes <+: changes')
    (hamend : ∀ row change, saves.keyOf row = saves.key change →
      part (saves.amend row change) = part row) :
    ∀ row ∈ rows, ∃ kept ∈ rows', saves.keyOf kept = saves.keyOf row ∧ part kept = part row := by
  intro row hrow
  obtain ⟨more, rfl⟩ := hmore
  obtain ⟨kept, htold, hpart⟩ := told_append_part hamend ((h.mem row).mp hrow) more
  have hkey := key_told htold
  refine ⟨kept, (h'.mem kept).mpr ?_, hkey, hpart⟩
  rw [hkey]
  exact htold

/-- The keys of a table are those that were saved. -/
theorem Holds.mem_keys (h : saves.Holds changes rows) :
    wanted ∈ rows.map saves.keyOf ↔ (saves.told changes wanted).isSome := by
  rw [← h.find wanted, List.find?_isSome, List.mem_map]
  simp

/-- A table holds what is told when its rows are those it had and the one that was saved. -/
theorem Holds.of_mem (h : saves.Holds changes rows) {rows' : List Row}
    (hnodup : (rows'.map saves.keyOf).Nodup)
    (hmem : ∀ row, row ∈ rows' ↔ (row ∈ rows ∧ saves.keyOf row ≠ saves.key change) ∨
      row = saves.toldBy (saves.told changes (saves.key change)) change) :
    saves.Holds (changes ++ [change]) rows' := by
  refine ⟨hnodup, fun row => ?_⟩
  have hnew : saves.keyOf (saves.toldBy (saves.told changes (saves.key change)) change) =
      saves.key change := by
    have htold : saves.told (changes ++ [change]) (saves.key change) =
        some (saves.toldBy (saves.told changes (saves.key change)) change) := by
      rw [told_append_one, if_pos rfl]
    exact key_told htold
  rw [hmem, told_append_one]
  constructor
  · intro hrow
    rcases hrow with ⟨hrow, hkey⟩ | rfl
    · rw [if_neg (Ne.symm hkey)]
      exact (h.mem row).mp hrow
    · rw [hnew, if_pos rfl]
  · intro htold
    by_cases hkey : saves.key change = saves.keyOf row
    · rw [if_pos hkey] at htold
      rw [hkey]
      exact Or.inr (Option.some.inj htold).symm
    · rw [if_neg hkey] at htold
      exact Or.inl ⟨(h.mem row).mpr htold, fun heq => hkey heq.symm⟩

/-- The keys after a save. -/
theorem mem_keys_put :
    wanted ∈ (saves.put change rows).map saves.keyOf ↔
      wanted = saves.key change ∨ wanted ∈ rows.map saves.keyOf := by
  induction rows with
  | nil => simp [put, saves.key_fresh]
  | cons row rows ih =>
      rw [put]
      split_ifs with hkey
      · rw [List.map_cons, List.map_cons, List.mem_cons, List.mem_cons,
          saves.key_amend row change hkey, hkey]
        exact ⟨Or.inr, fun h => h.elim Or.inl id⟩
      · rw [List.map_cons, List.map_cons, List.mem_cons, List.mem_cons, ih]
        exact or_left_comm

/-- No key gets two rows. -/
theorem nodup_put (hnodup : (rows.map saves.keyOf).Nodup) :
    ((saves.put change rows).map saves.keyOf).Nodup := by
  induction rows with
  | nil => exact List.nodup_singleton _
  | cons row rows ih =>
      obtain ⟨hrow, hrows⟩ := List.nodup_cons.mp hnodup
      rw [put]
      split_ifs with hkey
      · rw [List.map_cons, saves.key_amend row change hkey, ← hkey]
        exact hnodup
      · refine List.nodup_cons.mpr ⟨fun hmem => ?_, ih hrows⟩
        rcases mem_keys_put.mp hmem with h | h
        · exact hkey h
        · exact hrow h

/-- What is in a table after a save. -/
theorem mem_put (hnodup : (rows.map saves.keyOf).Nodup) {other : Row} :
    other ∈ saves.put change rows ↔ (other ∈ rows ∧ saves.keyOf other ≠ saves.key change) ∨
      other = saves.toldBy (rows.find? fun row => saves.keyOf row = saves.key change) change := by
  induction rows with
  | nil => simp [put, toldBy]
  | cons row rows ih =>
      obtain ⟨hrow, hrows⟩ := List.nodup_cons.mp hnodup
      rw [put, List.find?_cons]
      by_cases hkey : saves.keyOf row = saves.key change
      · rw [if_pos hkey, List.mem_cons, List.mem_cons]
        have hrest : ∀ other ∈ rows, saves.keyOf other ≠ saves.key change := by
          intro other hother heq
          exact hrow (List.mem_map.mpr ⟨other, hother, heq.trans hkey.symm⟩)
        simp only [hkey, decide_true, toldBy, Option.elim_some]
        constructor
        · intro h
          rcases h with h | h
          · exact Or.inr h
          · exact Or.inl ⟨Or.inr h, hrest other h⟩
        · intro h
          rcases h with ⟨rfl | h, hne⟩ | h
          · exact absurd hkey hne
          · exact Or.inr h
          · exact Or.inl h
      · rw [if_neg hkey, List.mem_cons, List.mem_cons, ih hrows]
        simp only [hkey, decide_false]
        constructor
        · intro h
          rcases h with rfl | ⟨h, hne⟩ | h
          · exact Or.inl ⟨Or.inl rfl, hkey⟩
          · exact Or.inl ⟨Or.inr h, hne⟩
          · exact Or.inr h
        · intro h
          rcases h with ⟨rfl | h, hne⟩ | h
          · exact Or.inl rfl
          · exact Or.inr (Or.inl ⟨h, hne⟩)
          · exact Or.inr (Or.inr h)

/-- A save that changes nothing of the row that is there leaves the table as it is. -/
theorem put_eq_self
    (hfind : (rows.find? fun row => saves.keyOf row = saves.key change) = some row)
    (hsame : saves.amend row change = row) : saves.put change rows = rows := by
  induction rows with
  | nil => cases hfind
  | cons other rows ih =>
      rw [List.find?_cons] at hfind
      rw [put]
      split_ifs with hkey
      · simp only [hkey, decide_true] at hfind
        rw [Option.some.inj hfind, hsame]
      · simp only [hkey, decide_false] at hfind
        rw [ih hfind]

/-- No two rows get one part, when the row that is saved gets the part of no other. -/
theorem nodup_part_put {Part : Type} {part : Row → Part}
    (hnodup : (rows.map saves.keyOf).Nodup) (hparts : (rows.map part).Nodup)
    (hpart : ∀ row ∈ rows, saves.keyOf row ≠ saves.key change → part row ≠
      part (saves.toldBy (rows.find? fun row => saves.keyOf row = saves.key change) change)) :
    ((saves.put change rows).map part).Nodup := by
  induction rows with
  | nil => exact List.nodup_singleton _
  | cons row rows ih =>
      obtain ⟨hrow, hrows⟩ := List.nodup_cons.mp hnodup
      obtain ⟨hfirst, hparts⟩ := List.nodup_cons.mp hparts
      rw [put]
      rw [List.find?_cons] at hpart
      split_ifs with hkey
      · simp only [hkey, decide_true] at hpart
        refine List.nodup_cons.mpr ⟨fun hthere => ?_, hparts⟩
        obtain ⟨other, hother, hsame⟩ := List.mem_map.mp hthere
        refine hpart other (List.mem_cons_of_mem _ hother) (fun heq => ?_) hsame
        exact hrow (List.mem_map.mpr ⟨other, hother, heq.trans hkey.symm⟩)
      · simp only [hkey, decide_false] at hpart
        refine List.nodup_cons.mpr ⟨fun hthere => ?_, ih hrows hparts fun other hother =>
          hpart other (List.mem_cons_of_mem _ hother)⟩
        obtain ⟨other, hother, hsame⟩ := List.mem_map.mp hthere
        rcases (mem_put hrows).mp hother with ⟨hother, _⟩ | rfl
        · exact hfirst (List.mem_map.mpr ⟨other, hother, hsame⟩)
        · exact hpart row List.mem_cons_self hkey hsame.symm

/-- A table that is saved to holds what is told after the save. -/
theorem Holds.put (h : saves.Holds changes rows) (change : Change) :
    saves.Holds (changes ++ [change]) (saves.put change rows) := by
  refine h.of_mem (nodup_put h.nodup) fun row => ?_
  rw [mem_put h.nodup, h.find]

end Saves

end Splitforge.Library
