import Mathlib.Order.Basic
import Splitforge.Raceday.Watch

/-!
# Commits the shipper has not seen

The loop of the shipper learns of a commit from `PRAGMA data_version`, a number that moves when
another connection commits and that means something on one connection only. Time is counted here in
the commits others have made to the two databases. The loop owes a pass until one that began behind
the last commit was done or stopped. It marks the versions as seen before a pass, and keeps them
where the pass fails and the connection is dropped: what a new connection reads may be the same.
-/

namespace Splitforge.Raceday

/-! ## Versions -/

/-- The commits of others so far, to the event database and to the shipper's. -/
abbrev Commits := Nat × Nat

/-- `PRAGMA data_version` of a database: on a connection, by the commits of others. It moves with
each of them, and a new connection may start anywhere. -/
structure DataVersion where
  value : Nat → Nat → Int
  moves : ∀ connection, Function.Injective (value connection)

/-- The commits there are when an iteration starts, reads the versions, begins its pass and ends. -/
structure Times where
  started : Commits
  read : Commits
  began : Commits
  ended : Commits
  started_le_read : started ≤ read
  read_le_began : read ≤ began
  began_le_ended : began ≤ ended

/-- The connection to the event database an iteration reads on, by the number opened before: the one
that is open, or a new one. -/
def Watch.connection (watch : Watch) (opened : Nat) : Nat :=
  if watch.event then opened else opened + 1

/-- What an iteration reads is what has been committed, and it starts behind the one before. -/
structure ReadsVersions (event state : DataVersion) (connection : Nat) (now : Commits)
    (times : Times) (moment : Moment) : Prop where
  later : now ≤ times.started
  versions : ∀ versions, moment.versions = .ok versions →
    versions = (event.value connection times.read.1, state.value 0 times.read.2)

/-! ## Runs -/

/-- An iteration of the past, and when it was. -/
structure Observation where
  iteration : Iteration
  times : Times

/-- The loop has gone through some iterations, newest first, while others committed. -/
inductive Watches (event state : DataVersion) (interval : Nat) (once : Bool) :
    List Observation → Watch → Nat → Commits → Prop where
  | start (now : Commits) : Watches event state interval once [] .start 0 now
  | step {history : List Observation} {watch watch' : Watch} {opened : Nat} {now : Commits}
      {times : Times} {moment : Moment} {ran : Option (Except String Pass)} {slept : Nat}
      (hpast : Watches event state interval once history watch opened now)
      (hagrees : ReadsVersions event state (watch.connection opened) now times moment)
      (hstep : watch.iterate interval once moment = ⟨ran, .goesOn watch' slept⟩) :
      Watches event state interval once (⟨⟨moment, ran, slept⟩, times⟩ :: history) watch'
        (watch.connection opened) times.ended

/-- The iterations of some observations. -/
def iterations (history : List Observation) : List Iteration := history.map Observation.iteration

/-- A pass that began behind the last commit before `started` was done or stopped. -/
def Settled (history : List Observation) (started : Commits) : Prop :=
  ∃ past ∈ history, (past.iteration.ran = some (.ok .done) ∨
    past.iteration.ran = some (.ok .stopped)) ∧ started ≤ past.times.began

/-- A retry is pending: the next attempt is later than the clock. -/
def Pending (history : List Observation) (clock : Nat) : Prop :=
  ∃ due ∈ nextAttemptAt (iterations history), clock < due

/-- An iteration keeps up: with no retry pending it runs a pass, unless one settled everything. -/
def KeepsUp (history : List Observation) (times : Times) (moment : Moment) (turn : Turn) : Prop :=
  ¬ Pending history moment.clock → ¬ Settled history times.started → turn.ran.isSome = true

/-- The versions read before the newest pass, if that pass failed. -/
def failedVersions : List Iteration → Option (Int × Int)
  | [] => none
  | iteration :: history =>
      match iteration.ran with
      | none => failedVersions history
      | some (.error _) => iteration.moment.versions.toOption
      | some (.ok _) => none

/-- An iteration can look, and where the newest pass failed with no retry set, the versions differ
from those read before it. -/
structure LooksAnew (once : Bool) (history : List Iteration) (watch : Watch) (moment : Moment) :
    Prop where
  opens : watch.event = true ∨ moment.opened = .ok ()
  reads : ∃ versions, moment.versions = .ok versions
  pairing : moment.KnowsPairing
  differs : once = false → nextAttemptAt history = none → ∀ versions ∈ failedVersions history,
    moment.versions ≠ .ok versions

section Runs

variable {event state : DataVersion} {interval : Nat} {once : Bool}
variable {history : List Observation} {watch watch' : Watch} {opened : Nat} {now : Commits}
variable {times : Times} {moment : Moment} {ran : Option (Except String Pass)} {slept : Nat}
variable {past : List Iteration}

/-- What was observed is a run of the loop. -/
theorem reaches_of_watches (h : Watches event state interval once history watch opened now) :
    Reaches interval once (iterations history) watch := by
  induction h with
  | start now => exact .start
  | step hpast hagrees hstep ih => exact .step ih hstep

/-! ## What the loop has seen -/

/-- Where the loop stands: it has run no pass yet, its newest pass failed, a retry is set, or its
newest pass was done or stopped and the connection of that pass is still open. -/
inductive Standing (event state : DataVersion) (history : List Observation) (watch : Watch)
    (opened : Nat) : Prop where
  | fresh (hseen : watch.seen = none)
  | failed {versions : Int × Int} (hseen : watch.seen = some versions)
      (hfailed : failedVersions (iterations history) = some versions)
  | retry {due : Nat} (hretry : watch.retryAt = some due)
  | settled {past : Observation} (hpast : past ∈ history)
      (hended : past.iteration.ran = some (.ok .done) ∨ past.iteration.ran = some (.ok .stopped))
      (hevent : watch.event = true)
      (hseen : watch.seen =
        some (event.value opened past.times.read.1, state.value 0 past.times.read.2))

/-- An iteration keeps where the loop stands, or its pass moves it. -/
theorem standing_step (h : Standing event state history watch opened)
    (hagrees : ReadsVersions event state (watch.connection opened) now times moment)
    (hwent : WentOn interval once watch moment ran watch') (slept : Nat) :
    Standing event state (⟨⟨moment, ran, slept⟩, times⟩ :: history) watch'
      (watch.connection opened) := by
  cases hwent with
  | quiet hseen hattempts hretry hevent =>
      cases h with
      | fresh hnone => exact .fresh (hseen.trans hnone)
      | failed hsome hfailed => exact .failed (hseen.trans hsome) hfailed
      | retry hset => exact .retry (hretry.trans hset)
      | settled hpast hended hopen hsome =>
          refine .settled (List.mem_cons_of_mem _ hpast) hended (hevent hopen) ?_
          rw [hseen, hsome, Watch.connection, if_pos hopen]
  | @passed result versions hversions hwants =>
      have hread := hagrees.versions versions hversions
      rcases result with error | (_ | after | _)
      · have hseen : moment.versions.toOption = some versions := by
          rw [hversions]
          rfl
        exact .failed rfl hseen
      · exact .settled (List.mem_cons_self ..) (.inl rfl) rfl (congrArg some hread)
      · exact .retry rfl
      · exact .settled (List.mem_cons_self ..) (.inr rfl) rfl (congrArg some hread)

/-- The loop always stands somewhere. -/
theorem standing_of_watches (h : Watches event state interval once history watch opened now) :
    Standing event state history watch opened := by
  induction h with
  | start now => exact .fresh rfl
  | step hpast hagrees hstep ih => exact standing_step ih hagrees (iterate_goes_on hstep).1 _

/-- The same versions on the same connections were read behind the same commits. -/
theorem reads_eq_of_versions_eq {connection : Nat} {before after : Commits}
    (h : (event.value connection before.1, state.value 0 before.2) =
      (event.value connection after.1, state.value 0 after.2)) : before = after := by
  obtain ⟨hevent, hstate⟩ := Prod.mk.inj h
  exact Prod.ext (event.moves _ hevent) (state.moves _ hstate)

/-! ## When it runs a pass -/

/-- A pass is wanted with nothing pending and versions that were not seen. -/
theorem wants_pass_of_unseen {versions : Int × Int} {clock : Nat}
    (hwaiting : watch.isWaiting clock = false) (hunseen : watch.seen ≠ some versions) :
    watch.wantsPass once versions clock = true := by
  unfold Watch.wantsPass
  rw [hwaiting]
  simp [hunseen]

/-- A pass is wanted with a retry due. -/
theorem wants_pass_of_due {versions : Int × Int} {clock due : Nat}
    (hwaiting : watch.isWaiting clock = false) (hdue : watch.retryAt = some due) :
    watch.wantsPass once versions clock = true := by
  unfold Watch.wantsPass
  rw [hwaiting, hdue]
  simp

theorem not_waiting_of_not_pending (hretry : watch.retryAt = nextAttemptAt (iterations history))
    {clock : Nat} (h : ¬ Pending history clock) : watch.isWaiting clock = false := by
  rw [Watch.isWaiting, hretry, Option.any_eq_false]
  intro due hdue
  exact decide_eq_false fun hlater => h ⟨due, hdue, hlater⟩

/-- Where a pass is owed and the iteration looks anew, a pass is wanted. -/
theorem wants_pass_of_owed (h : Watches event state interval once history watch opened now)
    (hagrees : ReadsVersions event state (watch.connection opened) now times moment)
    (hpending : ¬ Pending history moment.clock) (howed : ¬ Settled history times.started)
    (hlooks : LooksAnew once (iterations history) watch moment) {versions : Int × Int}
    (hversions : moment.versions = .ok versions) :
    watch.wantsPass once versions moment.clock = true := by
  have hcount := (counted_of_reaches (reaches_of_watches h)).retryAt
  have hwaiting := not_waiting_of_not_pending hcount hpending
  cases hretry : watch.retryAt with
  | some due => exact wants_pass_of_due hwaiting hretry
  | none =>
      by_cases honce : once = true
      · rw [Watch.wantsPass, honce, Bool.true_or]
      refine wants_pass_of_unseen hwaiting ?_
      cases standing_of_watches h with
      | fresh hnone => rw [hnone]; exact nofun
      | failed hsome hfailed =>
          intro hsame
          rw [hsome] at hsame
          injection hsame with hsame
          refine hlooks.differs (by simpa using honce) (hcount ▸ hretry) _ hfailed ?_
          rw [hversions, hsame]
      | retry hset => rw [hset] at hretry; cases hretry
      | settled hpast hended hopen hsome =>
          intro hsame
          rw [hsome, hagrees.versions versions hversions, Watch.connection, if_pos hopen] at hsame
          injection hsame with hsame
          have hreads := reads_eq_of_versions_eq hsame
          refine howed ⟨_, hpast, hended, times.started_le_read.trans ?_⟩
          rw [← hreads]
          exact Times.read_le_began _

/-- The versions read before a pass that failed are those the loop has seen. -/
theorem seen_of_failed (h : Reaches interval once past watch) {versions : Int × Int}
    (hfailed : failedVersions past = some versions) : watch.seen = some versions := by
  induction h with
  | start => cases hfailed
  | step hpast hstep ih =>
      cases (iterate_goes_on hstep).1 with
      | quiet hseen hattempts hretry hevent =>
          rw [hseen]
          exact ih hfailed
      | @passed result read hversions hwants =>
          rcases result with error | (_ | after | _)
          · have hread : Except.toOption (.ok read : Except String (Int × Int)) =
                some versions := by
              rw [← hversions]
              exact hfailed
            exact hread
          · cases hfailed
          · cases hfailed
          · cases hfailed

/-- An iteration that ran a pass did look anew. -/
theorem looks_anew_of_ran (h : Reaches interval once past watch)
    (hran : (watch.iterate interval once moment).ran.isSome = true) :
    LooksAnew once past watch moment := by
  obtain ⟨hopens, ⟨versions, hversions, hwants⟩, hpairing⟩ := iterate_ran.mp hran
  refine ⟨hopens, ⟨versions, hversions⟩, hpairing, ?_⟩
  intro honce hretry failed hfailed hsame
  rw [Watch.wantsPass, Watch.isWaiting, (counted_of_reaches h).retryAt, hretry, honce,
    seen_of_failed h hfailed] at hwants
  rw [hversions] at hsame
  injection hsame with hsame
  simp [hsame] at hwants

/-- In every run, whatever others commit, an iteration keeps up if and only if, where it owes a
pass, it looks anew. -/
theorem keeps_up_iff (h : Watches event state interval once history watch opened now)
    (hagrees : ReadsVersions event state (watch.connection opened) now times moment) :
    KeepsUp history times moment (watch.iterate interval once moment) ↔
      (¬ Pending history moment.clock → ¬ Settled history times.started →
        LooksAnew once (iterations history) watch moment) := by
  constructor
  · intro hkeeps hpending howed
    exact looks_anew_of_ran (reaches_of_watches h) (hkeeps hpending howed)
  · intro hlooks hpending howed
    have hanew := hlooks hpending howed
    obtain ⟨versions, hversions⟩ := hanew.reads
    have hwants := wants_pass_of_owed h hagrees hpending howed hanew hversions
    exact iterate_ran.mpr ⟨hanew.opens, ⟨versions, hversions, hwants⟩, hanew.pairing⟩

end Runs

/-! ## A commit nobody sees -/

/-- A version that counts commits, from a number by the connection. -/
def countedVersion (start : Nat → Int) : DataVersion where
  value connection commits := start connection + commits
  moves connection before after h := by
    have hsum : start connection + (before : Int) = start connection + (after : Int) := h
    omega

/-- The first iteration of a paired box, with a pass that fails. -/
def failedMoment : Moment :=
  ⟨.ok (), .ok (1, 0), 0, .ok true, .error "the race's chip assignments overlap", 0, .ok ()⟩

/-- Times with nothing committed in between. -/
def Times.still (commits : Commits) : Times :=
  ⟨commits, commits, commits, commits, le_refl _, le_refl _, le_refl _⟩

/-- Before any pass there is nothing to tell apart. -/
theorem first_iteration_keeps_up :
    KeepsUp [] (.still (0, 0)) failedMoment
      (Watch.start.iterate nanosPerSecond false failedMoment) := by
  have hagrees : ReadsVersions (countedVersion fun _ => 1) (countedVersion fun _ => 0)
      (Watch.start.connection 0) (0, 0) (.still (0, 0)) failedMoment := by
    refine ⟨le_refl _, ?_⟩
    intro versions hversions
    cases hversions
    rfl
  refine (keeps_up_iff (.start (0, 0)) hagrees).mpr fun _ _ => ?_
  exact ⟨.inr rfl, ⟨_, rfl⟩, .inl rfl, nofun⟩

/-- A pass fails, another connection commits, and the new connection starts where the old one was:
the loop goes on without a pass. -/
theorem failed_pass_hides_a_commit :
    ¬ ∀ (event state : DataVersion) (interval : Nat) (once : Bool) (history : List Observation)
      (watch : Watch) (opened : Nat) (now : Commits) (times : Times) (moment : Moment),
        Watches event state interval once history watch opened now →
        ReadsVersions event state (watch.connection opened) now times moment →
          KeepsUp history times moment (watch.iterate interval once moment) := by
  intro h
  let event := countedVersion fun connection => 2 - connection
  let state := countedVersion fun _ => 0
  have hfirst : ReadsVersions event state (Watch.start.connection 0) (0, 0) (.still (0, 0))
      failedMoment := by
    refine ⟨le_refl _, ?_⟩
    intro versions hversions
    cases hversions
    rfl
  have hrun : Watches event state nanosPerSecond false
      [⟨⟨failedMoment, some failedMoment.passed, nanosPerSecond⟩, .still (0, 0)⟩]
      ⟨false, some (1, 0), 0, none⟩ 1 (0, 0) := .step (.start (0, 0)) hfirst rfl
  have hsecond : ReadsVersions event state (Watch.connection ⟨false, some (1, 0), 0, none⟩ 1) (0, 0)
      (.still (1, 0)) failedMoment := by
    refine ⟨by simp [Times.still, Prod.le_def], ?_⟩
    intro versions hversions
    cases hversions
    rfl
  have hkeeps := h event state nanosPerSecond false _ _ 1 (0, 0) _ _ hrun hsecond
  have hran := hkeeps ?_ ?_
  · cases hran
  · intro ⟨due, hdue, _⟩
    cases hdue
  · intro ⟨past, hpast, hended, _⟩
    rw [List.mem_singleton] at hpast
    rw [hpast] at hended
    rcases hended with hended | hended <;> cases hended

end Splitforge.Raceday
