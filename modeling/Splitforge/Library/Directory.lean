import Mathlib.Data.List.Nodup

/-!
# A directory of files

A map from names to files. A rename takes what stands under one name to another, over whatever
stood there. Nothing is lost from one directory to the next when every file still stands under
some name.
-/

namespace Splitforge.Library

/-- What stands under each name. -/
abbrev Directory (Name File : Type) : Type := Name → Option File

namespace Directory

variable {Name File : Type}

/-- Every file of the first directory still stands in the second, under some name. -/
def Keeps (directory directory' : Directory Name File) : Prop :=
  ∀ name file, directory name = some file → ∃ name', directory' name' = some file

/-- Every file of the directory may stand under its name. -/
def All (directory : Directory Name File) (kind : Name → File → Prop) : Prop :=
  ∀ name file, directory name = some file → kind name file

variable {directory directory' directory'' : Directory Name File}

/-- A directory keeps what it has. -/
theorem Keeps.refl (directory : Directory Name File) : directory.Keeps directory :=
  fun name _ hfile => ⟨name, hfile⟩

/-- What is kept twice is kept. -/
theorem Keeps.trans (h : directory.Keeps directory') (h' : directory'.Keeps directory'') :
    directory.Keeps directory'' := by
  intro name file hfile
  obtain ⟨name', hfile'⟩ := h name file hfile
  exact h' name' file hfile'

variable [DecidableEq Name]

/-- Puts a file under a name, or takes what stands there away. -/
def put (directory : Directory Name File) (name : Name) (file : Option File) :
    Directory Name File :=
  fun other => if other = name then file else directory other

/-- Takes a file to another name, over what stood there. A name under which nothing stands moves
nothing. -/
def rename (directory : Directory Name File) (source target : Name) : Directory Name File :=
  match directory source with
  | none => directory
  | some file => (directory.put source none).put target (some file)

variable {name source target : Name} {file : Option File}

@[simp]
theorem put_self : directory.put name file name = file := if_pos rfl

theorem put_other {other : Name} (h : other ≠ name) :
    directory.put name file other = directory other := if_neg h

/-- After a rename to a free name, the file stands there. -/
theorem rename_target (hfree : directory target = none) :
    directory.rename source target target = directory source := by
  unfold rename
  cases hsource : directory source with
  | none => exact hfree
  | some file => exact put_self

/-- After a rename nothing stands under the old name. -/
theorem rename_source (hne : source ≠ target) : directory.rename source target source = none := by
  unfold rename
  cases hsource : directory source with
  | none => exact hsource
  | some file =>
      show (directory.put source none).put target (some file) source = none
      rw [put_other hne, put_self]

/-- A rename leaves every third name as it is. -/
theorem rename_other {other : Name} (hsource : other ≠ source) (htarget : other ≠ target) :
    directory.rename source target other = directory other := by
  unfold rename
  cases directory source with
  | none => rfl
  | some file =>
      show (directory.put source none).put target (some file) other = directory other
      rw [put_other htarget, put_other hsource]

/-- A name under which nothing stands moves nothing. -/
theorem rename_missing (h : directory source = none) :
    directory.rename source target = directory := by
  unfold rename
  rw [h]

variable {kind : Name → File → Prop}

/-- A file is put under a name where it may stand. -/
theorem All.put (h : directory.All kind) (hfile : ∀ new, file = some new → kind name new) :
    (directory.put name file).All kind := by
  intro other found hfound
  by_cases heq : other = name
  · rw [heq, put_self] at hfound
    exact heq ▸ hfile found hfound
  · rw [put_other heq] at hfound
    exact h other found hfound

/-- A file is renamed to a name where it may stand. -/
theorem All.rename (h : directory.All kind) (hkind : ∀ new, kind source new → kind target new) :
    (directory.rename source target).All kind := by
  unfold Directory.rename
  cases hsource : directory source with
  | none => exact h
  | some file =>
      have hput : (directory.put source none).All kind := h.put fun _ hnew => by cases hnew
      refine hput.put fun new hnew => ?_
      cases hnew
      exact hkind file (h source file hsource)

/-! ## Moving several files aside -/

/-- Takes each of some names aside, in order. -/
def moveAside (aside : Name → Name) (directory : Directory Name File) (names : List Name) :
    Directory Name File :=
  names.foldl (fun directory name => directory.rename name (aside name)) directory

theorem move_aside_cons {aside : Name → Name} {names : List Name} :
    directory.moveAside aside (name :: names) =
      (directory.rename name (aside name)).moveAside aside names := rfl

/-- Names may be moved aside without covering a file: they are distinct, what they become is
distinct, free, and none of them. -/
structure Clear (aside : Name → Name) (directory : Directory Name File) (names : List Name) :
    Prop where
  nodup : names.Nodup
  injective : ∀ name ∈ names, ∀ other ∈ names, aside name = aside other → name = other
  apart : ∀ name ∈ names, ∀ other ∈ names, aside name ≠ other
  free : ∀ name ∈ names, directory (aside name) = none

variable {aside : Name → Name} {names : List Name}

/-- The names after the first may be moved aside once the first has been. -/
theorem Clear.tail (h : Clear aside directory (name :: names)) :
    Clear aside (directory.rename name (aside name)) names where
  nodup := h.nodup.of_cons
  injective := fun first hfirst second hsecond =>
    h.injective first (List.mem_cons_of_mem _ hfirst) second (List.mem_cons_of_mem _ hsecond)
  apart := fun first hfirst second hsecond =>
    h.apart first (List.mem_cons_of_mem _ hfirst) second (List.mem_cons_of_mem _ hsecond)
  free := by
    intro other hother
    have hmem : other ∈ name :: names := List.mem_cons_of_mem _ hother
    rw [rename_other]
    · exact h.free other hmem
    · exact h.apart other hmem name List.mem_cons_self
    · intro heq
      have : other = name := h.injective other hmem name List.mem_cons_self heq
      exact (List.nodup_cons.mp h.nodup).1 (this ▸ hother)

/-- A name that is neither moved nor moved to is left as it is. -/
theorem move_aside_other {other : Name} (hsource : other ∉ names)
    (htarget : ∀ name ∈ names, other ≠ aside name) :
    directory.moveAside aside names other = directory other := by
  induction names generalizing directory with
  | nil => rfl
  | cons name names ih =>
      rw [move_aside_cons, ih (fun hother => hsource (List.mem_cons_of_mem _ hother))
        (fun name hname => htarget name (List.mem_cons_of_mem _ hname))]
      exact rename_other (fun heq => hsource (heq ▸ List.mem_cons_self))
        (htarget name List.mem_cons_self)

/-- Every name moved aside is free afterwards, and its file stands where it was moved to. -/
theorem move_aside_moved (h : Clear aside directory names) {moved : Name} (hmoved : moved ∈ names) :
    directory.moveAside aside names moved = none ∧
      directory.moveAside aside names (aside moved) = directory moved := by
  induction names generalizing directory with
  | nil => cases hmoved
  | cons name names ih =>
      obtain ⟨hname, _⟩ := List.nodup_cons.mp h.nodup
      rw [move_aside_cons]
      rcases List.mem_cons.mp hmoved with rfl | hmoved'
      · have hne : moved ≠ aside moved := (h.apart _ hmoved _ hmoved).symm
        have hthird : ∀ other ∈ names, moved ≠ aside other := fun other hother =>
          (h.apart _ (List.mem_cons_of_mem _ hother) _ hmoved).symm
        refine ⟨?_, ?_⟩
        · rw [move_aside_other hname hthird, rename_source hne]
        · rw [move_aside_other, rename_target (h.free _ hmoved)]
          · intro hmem
            exact h.apart _ hmoved _ (List.mem_cons_of_mem _ hmem) rfl
          · intro other hother heq
            have : moved = other :=
              h.injective _ hmoved _ (List.mem_cons_of_mem _ hother) heq
            exact hname (this ▸ hother)
      · obtain ⟨hnone, haside⟩ := ih h.tail hmoved'
        refine ⟨hnone, haside.trans (rename_other ?_ ?_)⟩
        · intro heq
          exact hname (heq ▸ hmoved')
        · exact (h.apart _ List.mem_cons_self _ hmoved).symm

/-- Moving files aside to free names loses none. -/
theorem keeps_move_aside (h : Clear aside directory names) :
    directory.Keeps (directory.moveAside aside names) := by
  intro name file hfile
  by_cases hmem : name ∈ names
  · exact ⟨aside name, (move_aside_moved h hmem).2.trans hfile⟩
  · refine ⟨name, ?_⟩
    rw [move_aside_other hmem, hfile]
    intro other hother heq
    rw [heq, h.free other hother] at hfile
    cases hfile

end Directory

end Splitforge.Library
