import Mathlib.Data.List.Infix
import Splitforge.Library.Directory
import Splitforge.Library.Runs
import Splitforge.Storage.Connection

/-!
# Restoring a snapshot

A restore moves the database at its destination aside, with its `-wal` and `-shm`, copies the
snapshot there and opens it. Each of its steps fails when the environment of the call says so, and
the names it moves files to carry the second the clock returned. A careful call is one that stops
before it moves anything, or moves its files to free names and then goes through; a run of careful
calls loses no file.
-/

namespace Splitforge.Storage

open Splitforge.Library

/-- A file: its bytes, and how many calls had returned when it was made. -/
structure File (Content : Type) where
  content : Content
  made : Nat
deriving DecidableEq

/-- How a copy ends: whole, or with an error and what it wrote until then. -/
inductive Copied (Content : Type) where
  | whole
  | failed (error : String) (wrote : Option Content)

/-- What one call finds: what the verification returns, the second of the clock, which renames
fail, how the copy ends, what opening with its migrations, counting and measuring return, and what
the connection leaves under the three names once it is closed. -/
structure RestoreEnv (Content : Type) where
  verified : Except StorageError Nat
  stamp : Int
  renames : String → Option String
  copied : Copied Content
  opened : Except StorageError Unit
  counted : Except StorageError Int
  sized : Except String Nat
  leaves : String → Option Content

/-- A call of `restore`. -/
structure RestoreCall (Content : Type) where
  snapshot : String
  destination : String
  replace : Bool
  env : RestoreEnv Content

/-- What a restore did, and to what. -/
structure RestoreReport where
  source : String
  destination : String
  displaced : List String
  bytes : Nat
  rawReads : Nat
deriving DecidableEq

/-- The suffixes of the files that make up a database. -/
def suffixes : List String := ["", "-wal", "-shm"]

/-- The name a file is moved aside to. -/
def superseded (stamp : Int) (name : String) : String :=
  name ++ ".superseded." ++ toString stamp

section Restore

variable {Content : Type} (call : RestoreCall Content)

/-- The names of the three files. -/
def RestoreCall.names : List String := suffixes.map (call.destination ++ ·)

/-- Writes a file, which is a new one unless it was there. -/
def written (now : Nat) (directory : Directory String (File Content)) (name : String)
    (content : Option Content) : Directory String (File Content) :=
  directory.put name (content.map fun content =>
    ⟨content, ((directory name).map File.made).getD now⟩)

/-- The loop that renames the three files, in order; `displaced` are the new names so far. -/
def displace : List String → List String → Directory String (File Content) →
    Except StorageError (List String) × Directory String (File Content)
  | [], displaced, directory => (.ok displaced, directory)
  | suffix :: rest, displaced, directory =>
      let source := call.destination ++ suffix
      let target := superseded call.env.stamp source
      if (directory source).isNone then displace rest displaced directory
      else
        match call.env.renames suffix with
        | some error =>
            (.error (.decode ("moving " ++ source ++ " aside to " ++ target ++ ": " ++ error)),
              directory)
        | none => displace rest (displaced ++ [target]) (directory.rename source target)

/-- What opening the restored database, counting its reads and measuring it come to. -/
def readBack (rawReads : Nat) (displaced : List String) : Except StorageError RestoreReport := do
  call.env.opened
  let reads ← call.env.counted
  let bytes ← call.env.sized.mapError fun error =>
    .decode ("stat " ++ call.destination ++ ": " ++ error)
  return ⟨call.snapshot, call.destination, displaced, bytes,
    if 0 ≤ reads then reads.toNat else rawReads⟩

/-- What stands under the three names when the connection is closed. -/
def settle (now : Nat) (directory : Directory String (File Content)) :
    Directory String (File Content) :=
  suffixes.foldl (fun directory suffix =>
    written now directory (call.destination ++ suffix) (call.env.leaves suffix)) directory

/-- Copies the snapshot and opens the copy. -/
def copyAndOpen (now : Nat) (rawReads : Nat) (displaced : List String)
    (directory : Directory String (File Content)) :
    Except StorageError RestoreReport × Directory String (File Content) :=
  let failure := fun error : String => StorageError.decode
    ("copying " ++ call.snapshot ++ " to " ++ call.destination ++ ": " ++ error)
  match directory call.snapshot, call.env.copied with
  -- the snapshot may be one of the files that were moved
  | none, _ => (.error (failure "No such file or directory (os error 2)"), directory)
  | some _, .failed error none => (.error (failure error), directory)
  | some _, .failed error (some wrote) =>
      (.error (failure error), written now directory call.destination (some wrote))
  | some file, .whole =>
      (readBack call rawReads displaced,
        settle call now (written now directory call.destination (some file.content)))

/-- `restore`, as the call after `now` others. -/
def restore (now : Nat) (directory : Directory String (File Content)) :
    Except StorageError RestoreReport × Directory String (File Content) :=
  if (directory call.snapshot).isNone then
    (.error (.decode (call.snapshot ++ " does not exist")), directory)
  else
    match call.env.verified with
    | .error error => (.error error, directory)
    | .ok rawReads =>
        if (directory call.destination).isSome && !call.replace then
          (.error (.decode (call.destination ++
            " already exists; pass --replace to move it aside and restore over it")), directory)
        else if (directory call.destination).isSome then
          match displace call suffixes [] directory with
          | (.error error, directory) => (.error error, directory)
          | (.ok displaced, directory) => copyAndOpen call now rawReads displaced directory
        else copyAndOpen call now rawReads [] directory

end Restore

/-- The directory between calls, and how many have returned. -/
structure RestoreState (Content : Type) where
  files : Directory String (File Content)
  calls : Nat

variable {Content : Type}

/-- The directory before the first call. -/
def atStart (contents : String → Option Content) : RestoreState Content :=
  ⟨fun name => (contents name).map (⟨·, 0⟩), 1⟩

/-- The directory after one more call. -/
def restoreStep (state : RestoreState Content) (call : RestoreCall Content) :
    RestoreState Content :=
  ⟨(restore call state.calls state.files).2, state.calls + 1⟩

/-! ## What one call makes -/

section Made

/-- What a call does to files stays within a kind: a file of the three names may be new, may be
written over, and may be moved aside. -/
structure Admits (call : RestoreCall Content) (now : Nat) (kind : String → File Content → Prop) :
    Prop where
  written : ∀ name ∈ call.names, ∀ content, kind name ⟨content, now⟩
  rewritten : ∀ name ∈ call.names, ∀ content old, kind name old → kind name ⟨content, old.made⟩
  moved : ∀ name ∈ call.names, ∀ file, kind name file → kind (superseded call.env.stamp name) file

variable {call : RestoreCall Content} {now : Nat} {directory : Directory String (File Content)}
variable {kind : String → File Content → Prop}

theorem destination_mem_names : call.destination ∈ call.names :=
  List.mem_map.mpr ⟨"", List.mem_cons_self, String.append_empty⟩

/-- Writing one of the three files keeps the kind. -/
theorem all_written (hadmits : Admits call now kind) (h : directory.All kind) {name : String}
    (hname : name ∈ call.names) {content : Option Content} :
    (written now directory name content).All kind := by
  refine h.put fun new hnew => ?_
  obtain ⟨content, _, rfl⟩ := Option.map_eq_some_iff.mp hnew
  cases hold : directory name with
  | none => exact hadmits.written name hname content
  | some old => exact hadmits.rewritten name hname content old (h name old hold)

/-- Renaming the three files keeps the kind. -/
theorem all_displace (hmoved : ∀ name ∈ call.names, ∀ file, kind name file →
      kind (superseded call.env.stamp name) file) (h : directory.All kind) (rest : List String)
    (hrest : ∀ suffix ∈ rest, suffix ∈ suffixes) (displaced : List String) :
    (displace call rest displaced directory).2.All kind := by
  induction rest generalizing displaced directory with
  | nil => exact h
  | cons suffix rest ih =>
      have hlater : ∀ other ∈ rest, other ∈ suffixes :=
        fun other hother => hrest other (List.mem_cons_of_mem _ hother)
      unfold displace
      dsimp only
      split_ifs with hsource
      · exact ih h hlater displaced
      · cases call.env.renames suffix with
        | some error => exact h
        | none =>
            refine ih (h.rename fun file hfile => ?_) hlater _
            exact hmoved _ (List.mem_map_of_mem (hrest suffix List.mem_cons_self)) file hfile

/-- Closing the connection keeps the kind. -/
theorem all_settle (hadmits : Admits call now kind) (h : directory.All kind) :
    (settle call now directory).All kind := by
  have hnames : ∀ suffix ∈ suffixes, call.destination ++ suffix ∈ call.names :=
    fun suffix hsuffix => List.mem_map_of_mem hsuffix
  unfold settle
  revert hnames
  induction suffixes generalizing directory with
  | nil => exact fun _ => h
  | cons suffix rest ih =>
      intro hnames
      refine ih (all_written hadmits h (hnames suffix List.mem_cons_self)) fun other hother => ?_
      exact hnames other (List.mem_cons_of_mem _ hother)

/-- The copy and the opening keep the kind. -/
theorem all_copy_and_open (hadmits : Admits call now kind) (h : directory.All kind)
    (rawReads : Nat) (displaced : List String) :
    (copyAndOpen call now rawReads displaced directory).2.All kind := by
  unfold copyAndOpen
  dsimp only
  split
  · exact h
  · exact h
  · exact all_written hadmits h destination_mem_names
  · exact all_settle hadmits (all_written hadmits h destination_mem_names)

/-- Whatever fails, a call keeps the kind. -/
theorem all_restore (hadmits : Admits call now kind) (h : directory.All kind) :
    (restore call now directory).2.All kind := by
  unfold restore
  split_ifs with hsnapshot hrefused hthere
  · exact h
  · cases call.env.verified with
    | error error => exact h
    | ok rawReads => exact h
  · cases call.env.verified with
    | error error => exact h
    | ok rawReads =>
        have hmoved := all_displace hadmits.moved h suffixes (fun _ hsuffix => hsuffix) []
        dsimp only
        cases hresult : displace call suffixes [] directory with
        | mk result moved =>
            rw [hresult] at hmoved
            cases result with
            | error error => exact hmoved
            | ok displaced => exact all_copy_and_open hadmits hmoved rawReads displaced
  · cases call.env.verified with
    | error error => exact h
    | ok rawReads => exact all_copy_and_open hadmits h rawReads []

/-- Where a copy and an opening go through, what was opened is a copy of the snapshot. -/
theorem copied_of_copy_and_open {rawReads : Nat} {displaced : List String} {report : RestoreReport}
    (h : (copyAndOpen call now rawReads displaced directory).1 = .ok report) :
    ∃ file, directory call.snapshot = some file ∧
      (copyAndOpen call now rawReads displaced directory).2 =
        settle call now (written now directory call.destination (some file.content)) := by
  unfold copyAndOpen at h ⊢
  dsimp only at h ⊢
  split at h
  · cases h
  · cases h
  · cases h
  · rename_i file hfile hcopied
    exact ⟨file, hfile, rfl⟩

/-- A call that goes through opened a copy of its snapshot, unless it moved a file over that. -/
theorem copied_of_restore {report : RestoreReport}
    (hapart : ∀ name ∈ call.names, call.snapshot ≠ superseded call.env.stamp name)
    (h : (restore call now directory).1 = .ok report) :
    ∃ file moved, directory call.snapshot = some file ∧ (restore call now directory).2 =
      settle call now (written now moved call.destination (some file.content)) := by
  unfold restore at h ⊢
  split_ifs at h ⊢ with hsnapshot hrefused hthere
  · cases hverified : call.env.verified with
    | error error => simp [hverified] at h
    | ok rawReads => simp [hverified] at h
  · cases hverified : call.env.verified with
    | error error => simp [hverified] at h
    | ok rawReads =>
        -- a rename brings a file to a superseded name only
        have hkind : directory.All fun name file => directory name = some file ∨
            ∃ other ∈ call.names, name = superseded call.env.stamp other :=
          fun name file hfile => .inl hfile
        have hmoved := all_displace (fun name hname _ _ => .inr ⟨name, hname, rfl⟩) hkind suffixes
          (fun _ hsuffix => hsuffix) []
        simp only [hverified] at h ⊢
        cases hresult : displace call suffixes [] directory with
        | mk result moved =>
            simp only [hresult] at h hmoved ⊢
            cases result with
            | error error => cases h
            | ok displaced =>
                obtain ⟨file, hfile, hsettled⟩ := copied_of_copy_and_open h
                refine ⟨file, moved, ?_, hsettled⟩
                rcases hmoved _ _ hfile with hsame | ⟨other, hother, heq⟩
                · exact hsame
                · exact absurd heq (hapart other hother)
  · cases hverified : call.env.verified with
    | error error => simp [hverified] at h
    | ok rawReads =>
        simp only [hverified] at h ⊢
        obtain ⟨file, hfile, hsettled⟩ := copied_of_copy_and_open h
        exact ⟨file, directory, hfile, hsettled⟩

end Made

/-- In any run, every file was made before the calls that are still to come. -/
theorem made_before (contents : String → Option Content) (calls : List (RestoreCall Content)) :
    (run restoreStep (atStart contents) calls).files.All
      fun _ file => file.made < (run restoreStep (atStart contents) calls).calls := by
  have hstep : ∀ (state : RestoreState Content) (call : RestoreCall Content),
      (state.files.All fun _ file => file.made < state.calls) →
      (restoreStep state call).files.All fun _ file =>
        file.made < (restoreStep state call).calls := by
    intro state call h
    have hadmits : Admits call state.calls fun _ file => file.made < state.calls + 1 :=
      ⟨fun _ _ _ => Nat.lt_succ_self _, fun _ _ _ _ hold => hold, fun _ _ _ hfile => hfile⟩
    exact all_restore hadmits fun name file hfile => Nat.lt_succ_of_lt (h name file hfile)
  refine @run_keeps _ _ _ (fun state : RestoreState Content =>
    state.files.All fun _ file => file.made < state.calls) hstep _ ?_ calls
  intro name file hfile
  obtain ⟨content, _, rfl⟩ := Option.map_eq_some_iff.mp hfile
  exact Nat.one_pos

/-- A run of calls that each keep a kind keeps it. -/
theorem all_run {kind : String → File Content → Prop} {state : RestoreState Content}
    {calls : List (RestoreCall Content)} (hadmits : ∀ call ∈ calls, ∀ now, Admits call now kind)
    (h : state.files.All kind) : (run restoreStep state calls).files.All kind := by
  induction calls generalizing state with
  | nil => exact h
  | cons call calls ih =>
      refine ih (fun other hother => hadmits other (List.mem_cons_of_mem _ hother)) ?_
      exact all_restore (hadmits call List.mem_cons_self state.calls) h

/-! ## Careful calls -/

/-- The call stops before it moves anything. -/
def Refused (state : RestoreState Content) (call : RestoreCall Content) : Prop :=
  state.files call.snapshot = none ∨ (∃ error, call.env.verified = .error error) ∨
    ((state.files call.destination).isSome ∧ call.replace = false)

/-- Nothing fails from the copy on. -/
def Completes (call : RestoreCall Content) : Prop :=
  call.env.copied = .whole ∧ call.env.opened = .ok () ∧ (∃ reads, call.env.counted = .ok reads) ∧
    ∃ bytes, call.env.sized = .ok bytes

/-- A call that meets no step it cannot take back: it stops before it moves anything, or it has
nothing to move, or it moves its files to free names and nothing fails behind that. -/
inductive Careful (state : RestoreState Content) (call : RestoreCall Content) : Prop where
  | refused (h : Refused state call)
  | uncopied (error : String) (habsent : state.files call.destination = none)
      (hcopied : call.env.copied = .failed error none)
  | fresh (habsent : ∀ name ∈ call.names, state.files name = none) (hcompletes : Completes call)
  | unmoved (error : String) (hrenames : call.env.renames "" = some error)
      (hpresent : (state.files call.destination).isSome)
  | replaced (hfree : ∀ name ∈ call.names, state.files (superseded call.env.stamp name) = none)
      (hrenames : ∀ suffix ∈ suffixes, (state.files (call.destination ++ suffix)).isSome →
        call.env.renames suffix = none)
      (hsnapshot : call.snapshot ∉ call.names) (hcompletes : Completes call)
      (hpresent : (state.files call.destination).isSome)

section Names

variable {call : RestoreCall Content}

/-- The three names differ. -/
theorem names_nodup : call.names.Nodup := by
  have hnodup : suffixes.Nodup := by decide
  refine hnodup.map fun first second h => ?_
  exact (String.append_right_inj call.destination).mp h

/-- A name moved aside is longer than the three. -/
theorem superseded_apart {stamp : Int} {name other : String} (hname : name ∈ call.names)
    (hother : other ∈ call.names) : superseded stamp name ≠ other := by
  have hlength : ∀ suffix ∈ suffixes, suffix.length ≤ 4 := by decide
  obtain ⟨first, hfirst, rfl⟩ := List.mem_map.mp hname
  obtain ⟨second, hsecond, rfl⟩ := List.mem_map.mp hother
  intro heq
  have hlengths := congrArg String.length heq
  have hmark : ".superseded.".length = 12 := by decide
  simp only [superseded, String.length_append, hmark] at hlengths
  have := hlength second hsecond
  omega

/-- Names that are free for the three may be moved to. -/
theorem clear_of_free {directory : Directory String (File Content)}
    (hfree : ∀ name ∈ call.names, directory (superseded call.env.stamp name) = none) :
    Directory.Clear (superseded call.env.stamp) directory call.names where
  nodup := names_nodup
  injective := by
    intro name _ other _ heq
    exact (String.append_left_inj _).mp ((String.append_left_inj _).mp heq)
  apart := fun name hname other hother => superseded_apart hname hother
  free := hfree

/-- A loop whose renames go through moves its names aside. -/
theorem displace_clear {directory : Directory String (File Content)} {rest : List String}
    (hclear : Directory.Clear (superseded call.env.stamp) directory
      (rest.map (call.destination ++ ·)))
    (hrenames : ∀ suffix ∈ rest, (directory (call.destination ++ suffix)).isSome →
      call.env.renames suffix = none) (displaced : List String) :
    ∃ displaced', displace call rest displaced directory = (.ok displaced',
      directory.moveAside (superseded call.env.stamp) (rest.map (call.destination ++ ·))) := by
  induction rest generalizing directory displaced with
  | nil => exact ⟨displaced, rfl⟩
  | cons suffix rest ih =>
      have htail := hclear.tail
      have hlater : ∀ other ∈ rest, ((directory.rename (call.destination ++ suffix)
          (superseded call.env.stamp (call.destination ++ suffix)))
            (call.destination ++ other)).isSome → call.env.renames other = none := by
        intro other hother hsome
        have hmem : call.destination ++ other ∈ rest.map (call.destination ++ ·) :=
          List.mem_map_of_mem hother
        refine hrenames other (List.mem_cons_of_mem _ hother) ?_
        rwa [Directory.rename_other] at hsome
        · intro heq
          rw [heq] at hmem
          exact (List.nodup_cons.mp hclear.nodup).1 hmem
        · exact (hclear.apart _ List.mem_cons_self _ (List.mem_cons_of_mem _ hmem)).symm
      unfold displace
      dsimp only
      split_ifs with hsource
      · have hmissing : directory (call.destination ++ suffix) = none :=
          Option.isNone_iff_eq_none.mp hsource
        rw [Directory.rename_missing hmissing] at htail hlater
        obtain ⟨displaced', hdisplaced⟩ := ih htail hlater displaced
        refine ⟨displaced', hdisplaced.trans ?_⟩
        rw [List.map_cons, Directory.move_aside_cons, Directory.rename_missing hmissing]
      · have hsome : (directory (call.destination ++ suffix)).isSome :=
          Option.isSome_iff_ne_none.mpr fun h => hsource (Option.isNone_iff_eq_none.mpr h)
        rw [hrenames suffix List.mem_cons_self hsome]
        exact ih htail hlater _

end Names

section Replacing

variable {call : RestoreCall Content} {now : Nat} {directory : Directory String (File Content)}

/-- Closing the connection touches the three names only. -/
theorem settle_other {name : String} (hname : name ∉ call.names) :
    settle call now directory name = directory name := by
  have hother : ∀ suffix ∈ suffixes, name ≠ call.destination ++ suffix := by
    intro suffix hsuffix heq
    rw [heq] at hname
    exact hname (List.mem_map_of_mem hsuffix)
  unfold settle
  revert hother
  induction suffixes generalizing directory with
  | nil => exact fun _ => rfl
  | cons suffix rest ih =>
      intro hother
      rw [List.foldl_cons, ih fun other hmem => hother other (List.mem_cons_of_mem _ hmem)]
      exact Directory.put_other (hother suffix List.mem_cons_self)

/-- Under the three names a call leaves no file but its own, where there was none. -/
theorem admits_made : Admits call now fun name file => name ∈ call.names → file.made = now where
  written := fun _ _ _ _ => rfl
  rewritten := fun _ _ _ _ hold => hold
  moved := fun _ hname _ _ hmem => absurd rfl (superseded_apart hname hmem)

/-- How a call that completes leaves the directory: every file still stands, what stood under the
three names stands aside, and what stands there now is this call's. -/
structure Replaced (call : RestoreCall Content) (now : Nat)
    (directory directory' : Directory String (File Content)) : Prop where
  keeps : directory.Keeps directory'
  aside : (∀ name ∈ call.names, directory name = none) ∨ ∀ name ∈ call.names,
    directory' (superseded call.env.stamp name) = directory name
  made : ∀ name ∈ call.names, ∀ file, directory' name = some file → file.made = now

/-- Copying the snapshot to where nothing stands, and opening it, when nothing fails. -/
theorem copy_and_open_completes (hcompletes : Completes call)
    (hfree : ∀ name ∈ call.names, directory name = none)
    (hsnapshot : directory call.snapshot ≠ none) (rawReads : Nat) (displaced : List String) :
    ∃ report directory', copyAndOpen call now rawReads displaced directory =
        (.ok report, directory') ∧ (∀ name ∉ call.names, directory' name = directory name) ∧
      ∀ name ∈ call.names, ∀ file, directory' name = some file → file.made = now := by
  obtain ⟨hcopied, hopened, ⟨reads, hcounted⟩, ⟨bytes, hsized⟩⟩ := hcompletes
  obtain ⟨file, hfile⟩ := Option.ne_none_iff_exists'.mp hsnapshot
  have hnone : directory.All fun name file => name ∈ call.names → file.made = now := by
    intro name old hold hname
    rw [hfree name hname] at hold
    cases hold
  have hwritten : (written now directory call.destination (some file.content)).All
      fun name file => name ∈ call.names → file.made = now :=
    all_written admits_made hnone destination_mem_names
  refine ⟨⟨call.snapshot, call.destination, displaced, bytes,
    if 0 ≤ reads then reads.toNat else rawReads⟩,
    settle call now (written now directory call.destination (some file.content)), ?_, ?_,
    fun name hname new hnew => all_settle admits_made hwritten name new hnew hname⟩
  · unfold copyAndOpen readBack
    rw [hfile, hcopied, hopened, hcounted, hsized]
    rfl
  · intro name hname
    rw [settle_other hname]
    refine Directory.put_other fun heq => ?_
    rw [heq] at hname
    exact hname destination_mem_names

/-- What nothing covers is kept. -/
theorem keeps_of_unchanged {directory' : Directory String (File Content)} {names : List String}
    (hfree : ∀ name ∈ names, directory name = none)
    (hother : ∀ name ∉ names, directory' name = directory name) : directory.Keeps directory' := by
  intro name file hfile
  refine ⟨name, ?_⟩
  rw [hother name, hfile]
  intro hmem
  rw [hfree name hmem] at hfile
  cases hfile

variable {state : RestoreState Content}

/-- A call that stops before it moves anything leaves the directory as it was. -/
theorem restore_refused (h : Refused state call) :
    ∃ error, restore call state.calls state.files = (.error error, state.files) := by
  unfold restore
  split_ifs with hsnapshot hexists hthere
  · exact ⟨_, rfl⟩
  all_goals
    cases hverified : call.env.verified with
    | error error => exact ⟨error, rfl⟩
    | ok rawReads => ?_
  · exact ⟨_, rfl⟩
  all_goals
    exfalso
    rcases h with hmissing | ⟨error, hunverified⟩ | ⟨hpresent, hreplace⟩
    · exact hsnapshot (Option.isNone_iff_eq_none.mpr hmissing)
    · rw [hunverified] at hverified
      cases hverified
    · rw [hpresent, hreplace] at hexists
      exact hexists rfl

/-- A call that does not stop there displaces what stands at its destination. -/
theorem restore_goes_on (h : ¬Refused state call) : state.files call.snapshot ≠ none ∧
    ∃ rawReads, restore call state.calls state.files =
      if (state.files call.destination).isSome then
        match displace call suffixes [] state.files with
        | (.error error, directory) => (.error error, directory)
        | (.ok displaced, directory) => copyAndOpen call state.calls rawReads displaced directory
      else copyAndOpen call state.calls rawReads [] state.files := by
  obtain ⟨hsnapshot, hverified, hexists⟩ := not_or.mp h |>.imp_right not_or.mp
  refine ⟨hsnapshot, ?_⟩
  cases hrawReads : call.env.verified with
  | error error => exact absurd ⟨error, hrawReads⟩ hverified
  | ok rawReads =>
      refine ⟨rawReads, ?_⟩
      have hreplace : ¬((state.files call.destination).isSome && !call.replace) = true := by
        intro hboth
        rw [Bool.and_eq_true, Bool.not_eq_true'] at hboth
        exact hexists hboth
      have hpresent : ¬(state.files call.snapshot).isNone = true :=
        fun hnone => hsnapshot (Option.isNone_iff_eq_none.mp hnone)
      unfold restore
      rw [if_neg hpresent, hrawReads]
      dsimp only
      rw [if_neg hreplace]

/-- A careful call returns an error and leaves the directory as it was, or it completes. -/
theorem careful_cases (h : Careful state call) :
    (∃ error, restore call state.calls state.files = (.error error, state.files)) ∨
      ∃ report directory', restore call state.calls state.files = (.ok report, directory') ∧
        Replaced call state.calls state.files directory' := by
  by_cases hrefused : Refused state call
  · exact .inl (restore_refused hrefused)
  obtain ⟨hsnapshot, rawReads, hrestore⟩ := restore_goes_on hrefused
  rw [hrestore]
  cases h with
  | refused h => exact absurd h hrefused
  | uncopied error habsent hcopied =>
      obtain ⟨file, hfile⟩ := Option.ne_none_iff_exists'.mp hsnapshot
      rw [habsent, if_neg (by simp)]
      unfold copyAndOpen
      rw [hfile, hcopied]
      exact .inl ⟨_, rfl⟩
  | fresh habsent hcompletes =>
      rw [habsent call.destination destination_mem_names, if_neg (by simp)]
      obtain ⟨report, directory', hreport, hother, hmade⟩ :=
        copy_and_open_completes hcompletes habsent hsnapshot rawReads []
      exact .inr ⟨report, directory', hreport, keeps_of_unchanged habsent hother, .inl habsent,
        hmade⟩
  | unmoved error hrenames hpresent =>
      have hsource : ¬(state.files (call.destination ++ "")).isNone = true := by
        rw [String.append_empty, Option.isNone_iff_eq_none]
        exact Option.isSome_iff_ne_none.mp hpresent
      rw [if_pos hpresent, suffixes, displace, if_neg hsource, hrenames]
      exact .inl ⟨_, rfl⟩
  | replaced hfree hrenames hnotin hcompletes hpresent =>
      have hclear := clear_of_free hfree
      obtain ⟨displaced, hdisplace⟩ := displace_clear hclear hrenames []
      rw [if_pos hpresent, hdisplace]
      have hmoved : ∀ name ∈ call.names,
          state.files.moveAside (superseded call.env.stamp) call.names name = none :=
        fun name hname => (Directory.move_aside_moved hclear hname).1
      have hbackup : state.files.moveAside (superseded call.env.stamp) call.names call.snapshot ≠
          none := by
        rw [Directory.move_aside_other hnotin]
        · exact hsnapshot
        · intro name hname heq
          rw [heq, hfree name hname] at hsnapshot
          exact hsnapshot rfl
      obtain ⟨report, directory', hreport, hother, hmade⟩ :=
        copy_and_open_completes hcompletes hmoved hbackup rawReads displaced
      refine .inr ⟨report, directory', hreport,
        (Directory.keeps_move_aside hclear).trans (keeps_of_unchanged hmoved hother), .inr ?_,
        hmade⟩
      intro name hname
      have haside : superseded call.env.stamp name ∉ call.names :=
        fun hmem => superseded_apart hname hmem rfl
      exact (hother _ haside).trans (Directory.move_aside_moved hclear hname).2

end Replacing

/-! ## Runs of calls -/

/-- What a call owes: right after it the three files stand together, where they were or aside, and
each stands under some name whatever calls follow; an error leaves the three names as they were;
and beside a restored database there is no file from before the call. -/
structure RestoredSafely (call : RestoreCall Content) (before after last : RestoreState Content) :
    Prop where
  together : (∀ name ∈ call.names, (before.files name).isSome →
      after.files name = before.files name) ∨
    ∀ name ∈ call.names, (before.files name).isSome →
      after.files (superseded call.env.stamp name) = before.files name
  kept : ∀ name ∈ call.names, ∀ file, before.files name = some file →
    ∃ name', last.files name' = some file
  unchanged : ∀ error, (restore call before.calls before.files).1 = .error error →
    ∀ name ∈ call.names, after.files name = before.files name
  alone : ∀ report, (restore call before.calls before.files).1 = .ok report →
    ∀ suffix ∈ ["-wal", "-shm"], ∀ beside,
      after.files (call.destination ++ suffix) = some beside →
      before.files.All fun _ file => file.made < beside.made

/-- Every call of a run does what it owes. -/
def RestoresSafely (contents : String → Option Content) (calls : List (RestoreCall Content)) :
    Prop :=
  ∀ earlier call later, calls = earlier ++ call :: later →
    RestoredSafely call (run restoreStep (atStart contents) earlier)
      (run restoreStep (atStart contents) (earlier ++ [call]))
      (run restoreStep (atStart contents) calls)

/-- A careful call loses no file. -/
theorem keeps_of_careful {state : RestoreState Content} {call : RestoreCall Content}
    (h : Careful state call) : state.files.Keeps (restoreStep state call).files := by
  unfold restoreStep
  rcases careful_cases h with ⟨error, hrestore⟩ | ⟨report, directory', hrestore, hreplaced⟩
  · rw [hrestore]
    exact Directory.Keeps.refl _
  · rw [hrestore]
    exact hreplaced.keeps

/-- A run of careful calls loses no file. -/
theorem keeps_of_run {state : RestoreState Content} {calls : List (RestoreCall Content)}
    (h : Allowed restoreStep Careful state calls) :
    state.files.Keeps (run restoreStep state calls).files := by
  induction calls generalizing state with
  | nil => exact Directory.Keeps.refl _
  | cons call calls ih => exact (keeps_of_careful h.1).trans (ih h.2)

/-- In a run of careful calls every call does what it owes. -/
theorem restores_safely (contents : String → Option Content) (calls : List (RestoreCall Content))
    (hcareful : Allowed restoreStep Careful (atStart contents) calls) :
    RestoresSafely contents calls := by
  intro earlier call later hcalls
  rw [hcalls, allowed_append] at hcareful
  obtain ⟨_, hcall, hlater⟩ := hcareful
  have hmade := made_before contents earlier
  rw [hcalls, run_append, run_append]
  generalize run restoreStep (atStart contents) earlier = before at hcall hlater hmade
  have hkept : before.files.Keeps (run restoreStep before (call :: later)).files :=
    (keeps_of_careful hcall).trans (keeps_of_run hlater)
  have hlast : ∀ name ∈ call.names, ∀ file, before.files name = some file →
      ∃ name', (run restoreStep before (call :: later)).files name' = some file :=
    fun name _ file hfile => hkept name file hfile
  rcases careful_cases hcall with ⟨error, hrestore⟩ | ⟨report, directory', hrestore, hreplaced⟩
  · have hafter : (run restoreStep before [call]).files = before.files := by
      show (restore call before.calls before.files).2 = before.files
      rw [hrestore]
    refine ⟨.inl fun name _ _ => by rw [hafter], hlast, fun _ _ name _ => by rw [hafter], ?_⟩
    intro report hreport
    rw [hrestore] at hreport
    cases hreport
  · have hafter : (run restoreStep before [call]).files = directory' := by
      show (restore call before.calls before.files).2 = directory'
      rw [hrestore]
    refine ⟨?_, hlast, ?_, ?_⟩
    · rw [hafter]
      rcases hreplaced.aside with habsent | haside
      · refine .inl fun name hname hpresent => ?_
        rw [habsent name hname] at hpresent
        cases hpresent
      · exact .inr fun name hname _ => haside name hname
    · intro error herror
      rw [hrestore] at herror
      cases herror
    · intro _ _ suffix hsuffix beside hbeside
      have hname : call.destination ++ suffix ∈ call.names :=
        List.mem_map_of_mem (List.mem_cons_of_mem _ hsuffix)
      rw [hafter] at hbeside
      rw [hreplaced.made _ hname beside hbeside]
      exact hmade

/-- A directory with a database, its write-ahead file and a snapshot. -/
def raceday : String → Option String
  | "db" => some "race"
  | "db-wal" => some "tail"
  | "bak" => some "snapshot"
  | _ => none

/-- A call that replaces a database in some second, and whose copy ends somehow. -/
def replacing (destination : String) (stamp : Int) (copied : Copied String) :
    RestoreCall String where
  snapshot := "bak"
  destination := destination
  replace := true
  env :=
    { verified := .ok 3, stamp := stamp, renames := fun _ => none, copied := copied,
      opened := .ok (), counted := .ok 3, sized := .ok 8,
      leaves := fun suffix => if suffix = "" then some "snapshot" else none }

/-- Two calls in different seconds. -/
theorem restores_safely_twice :
    RestoresSafely raceday [replacing "db" 5 .whole, replacing "db" 6 .whole] := by
  refine restores_safely raceday [replacing "db" 5 .whole, replacing "db" 6 .whole]
    ⟨.replaced ?_ (fun _ _ _ => rfl) ?_ ⟨rfl, rfl, ⟨3, rfl⟩, 8, rfl⟩ ?_,
      .replaced ?_ (fun _ _ _ => rfl) ?_ ⟨rfl, rfl, ⟨3, rfl⟩, 8, rfl⟩ ?_, trivial⟩
  all_goals decide +kernel

/-- The names under which a file can stand when every call is of one second. -/
def fiveNames : List String :=
  ["bak", "db", "db-wal", "db-shm", "db.superseded.5", "db-wal.superseded.5", "db-shm.superseded.5"]

/-- A copy that fails leaves nothing where the database stood, and the second of two calls in one
second moves a database over the one that the first moved aside. -/
theorem not_restores_safely :
    ¬RestoresSafely raceday
        [replacing "db" 5 (.failed "No space left on device (os error 28)" none)] ∧
      ¬RestoresSafely raceday [replacing "db" 5 .whole, replacing "db" 5 .whole] := by
  refine ⟨fun h => ?_, fun h => ?_⟩
  · have hmoved := (h [] _ [] rfl).unchanged _ rfl "db" (by decide)
    have hgone : (run restoreStep (atStart raceday)
        [replacing "db" 5 (.failed "No space left on device (os error 28)" none)]).files "db" =
          none := by
      decide +kernel
    cases hgone.symm.trans hmoved
  · obtain ⟨name, hname⟩ := (h [] _ [_] rfl).kept "db" (by decide) ⟨"race", 0⟩ rfl
    have hnames : ∀ name ∈ (replacing "db" 5 .whole).names,
        name ∈ fiveNames ∧ superseded 5 name ∈ fiveNames := by
      decide +kernel
    have hadmits : ∀ now, Admits (replacing "db" 5 .whole) now fun name _ => name ∈ fiveNames :=
      fun now => ⟨fun name hmem _ => (hnames name hmem).1, fun _ _ _ _ hold => hold,
        fun name hmem _ _ => (hnames name hmem).2⟩
    have hstart : (atStart raceday).files.All fun name _ => name ∈ fiveNames := by
      intro name file hfile
      obtain ⟨content, hcontent, _⟩ := Option.map_eq_some_iff.mp hfile
      unfold raceday at hcontent
      split at hcontent
      · decide
      · decide
      · decide
      · cases hcontent
    have hmem : name ∈ fiveNames := by
      refine all_run (fun call hcall => ?_) hstart name _ hname
      rcases List.mem_pair.mp hcall with rfl | rfl
      · exact hadmits
      · exact hadmits
    have hlost : ∀ name ∈ fiveNames, (run restoreStep (atStart raceday)
        [replacing "db" 5 .whole, replacing "db" 5 .whole]).files name ≠ some ⟨"race", 0⟩ := by
      decide +kernel
    exact hlost name hmem hname

end Splitforge.Storage
