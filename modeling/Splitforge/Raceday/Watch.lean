import Mathlib.Order.Lattice
import Splitforge.Raceday.Ship

/-!
# The loop of the shipper

`watch` looks at both databases and at the clock, runs a pass when something changed or a retry is
due, and sleeps. What it reads and what a pass comes to are inputs here. Instants are nanoseconds of
a clock that ends. Adding a span that leads beyond its end is a panic, so a server can stop the loop
by the time it asks for.
-/

namespace Splitforge.Raceday

/-! ## The clock -/

/-- Nanoseconds in a second. -/
def nanosPerSecond : Nat := 1000000000

/-- The last instant of the monotonic clock, whose seconds are an `i64`. -/
def instantMax : Nat := 2 ^ 63 * nanosPerSecond - 1

/-- `Instant + Duration`: nothing where it panics. -/
def instantAdd (now span : Nat) : Option Nat :=
  if now + span ≤ instantMax then some (now + span) else none

/-- `backoff`: the seconds to wait before an attempt, counting from 1. -/
def backoff (attempt : Nat) : Nat := min (1 <<< min (attempt - 1) 6) 60

/-- `attempts.saturating_add(1)` of a `u32`. -/
def nextAttempt (attempts : Nat) : Nat := min (attempts + 1) (2 ^ 32 - 1)

/-- The shortest sleep between two iterations. -/
def minSleep : Nat := 100000000

/-! ## An iteration -/

/-- The variables of the loop. -/
structure Watch where
  event : Bool
  seen : Option (Int × Int)
  attempts : Nat
  retryAt : Option Nat
deriving DecidableEq

/-- Before the first iteration. -/
def Watch.start : Watch := ⟨false, none, 0, none⟩

/-- What an iteration finds: whether the event database opens, the versions of the two databases,
the clock, whether there is a pairing, what a pass comes to, the clock again, and whether a note can
be taken. -/
structure Moment where
  opened : Except String Unit
  versions : Except String (Int × Int)
  clock : Nat
  paired : Except String Bool
  passed : Except String Pass
  clockAfter : Nat
  noted : Except String Unit

/-- How an iteration ends: the loop goes on after a sleep, or it returns, fails or panics. -/
inductive Next where
  | goesOn (watch : Watch) (slept : Nat)
  | returned (pass : String)
  | failed (error : String)
  | panicked
deriving DecidableEq

/-- An iteration: what its pass came to, if there was one, and how it ends. -/
structure Turn where
  ran : Option (Except String Pass)
  next : Next

/-- A retry is set for later than now. -/
def Watch.isWaiting (watch : Watch) (now : Nat) : Bool := watch.retryAt.any (now < ·)

/-- Whether a pass is run: for an operator who asked for one, or because a version differs from
those seen, or a retry is due. -/
def Watch.wantsPass (watch : Watch) (once : Bool) (versions : Int × Int) (now : Nat) : Bool :=
  let waiting := watch.isWaiting now
  let due := watch.retryAt.isSome && !waiting
  once || (!waiting && (watch.seen != some versions || due))

/-- The end of an iteration with a pass: its label for an operator who asked for one, or a sleep. -/
def endPass (once : Bool) (label : String) (watch : Watch) (wait : Nat) : Next :=
  if once then .returned label else .goesOn watch (max wait minSleep)

/-- What a pass leaves of the loop's variables. -/
def Watch.afterPass (interval : Nat) (once : Bool) (watch : Watch) (moment : Moment) :
    Except String Pass → Next
  | .ok .done => endPass once "done" { watch with attempts := 0, retryAt := none } interval
  | .ok (.retry after) =>
      let attempts := nextAttempt watch.attempts
      let span := after.getD (backoff attempts) * nanosPerSecond
      (instantAdd moment.clockAfter span).elim .panicked fun retryAt =>
        endPass once "retry" { watch with attempts, retryAt := some retryAt } (min interval span)
  | .ok .stopped => endPass once "stopped" { watch with retryAt := none } interval
  | .error _ =>
      match moment.noted with
      | .error failure => .failed failure
      | .ok () => endPass once "error" { watch with event := false } interval

/-- The pass of an iteration. Without a pairing it stops at a note. -/
def Watch.runPass (interval : Nat) (once : Bool) (watch : Watch) (moment : Moment) : Turn :=
  match moment.paired with
  | .error error => ⟨none, .failed error⟩
  | .ok false =>
      match moment.noted with
      | .error error => ⟨none, .failed error⟩
      | .ok () => ⟨some (.ok .stopped), watch.afterPass interval once moment (.ok .stopped)⟩
  | .ok true => ⟨some moment.passed, watch.afterPass interval once moment moment.passed⟩

/-- An iteration with the event database open. -/
def Watch.look (interval : Nat) (once : Bool) (watch : Watch) (moment : Moment) : Turn :=
  match moment.versions with
  | .error error => ⟨none, .failed error⟩
  | .ok versions =>
      if watch.wantsPass once versions moment.clock then
        Watch.runPass interval once { watch with seen := some versions } moment
      else
        let wait := match watch.retryAt with
          | some retryAt => min interval (retryAt - moment.clockAfter)
          | none => interval
        ⟨none, .goesOn watch (max wait minSleep)⟩

/-- An iteration of `watch`. Until the event database opens there is nothing to look at. -/
def Watch.iterate (interval : Nat) (once : Bool) (watch : Watch) (moment : Moment) : Turn :=
  if watch.event then watch.look interval once moment
  else match moment.opened with
    | .ok () => Watch.look interval once { watch with event := true } moment
    | .error _ =>
        match moment.noted with
        | .error error => ⟨none, .failed error⟩
        | .ok () => ⟨none, if once then .returned "waiting" else .goesOn watch interval⟩

/-! ## Runs -/

/-- An iteration of the past: what it found, what its pass came to, and how long it slept. -/
structure Iteration where
  moment : Moment
  ran : Option (Except String Pass)
  slept : Nat

/-- The loop has gone through some iterations, newest first, and goes on. -/
inductive Reaches (interval : Nat) (once : Bool) : List Iteration → Watch → Prop where
  | start : Reaches interval once [] .start
  | step {history : List Iteration} {watch watch' : Watch} {moment : Moment}
      {ran : Option (Except String Pass)} {slept : Nat}
    (hpast : Reaches interval once history watch)
      (hstep : watch.iterate interval once moment = ⟨ran, .goesOn watch' slept⟩) :
      Reaches interval once (⟨moment, ran, slept⟩ :: history) watch'

/-- The retries since a pass was done. -/
def retriesSinceDone : List Iteration → Nat
  | [] => 0
  | iteration :: history =>
      match iteration.ran with
      | some (.ok .done) => 0
      | some (.ok (.retry _)) => retriesSinceDone history + 1
      | _ => retriesSinceDone history

/-- The seconds from a retry to the next attempt: those the server named, or a power of two up to a
minute, by the retries before this one since a pass was done. -/
def retryDelay (history : List Iteration) (after : Option Nat) : Nat :=
  after.getD (min (2 ^ retriesSinceDone history) 60)

/-- The time of the next attempt: set by a retry, and pending until a pass is done or stops. -/
def nextAttemptAt : List Iteration → Option Nat
  | [] => none
  | iteration :: history =>
      match iteration.ran with
      | some (.ok .done) => none
      | some (.ok .stopped) => none
      | some (.ok (.retry after)) =>
          some (iteration.moment.clockAfter + retryDelay history after * nanosPerSecond)
      | _ => nextAttemptAt history

/-! ## What an iteration does -/

section Iterate

variable {interval : Nat} {once : Bool} {watch watch' : Watch} {moment : Moment} {slept : Nat}
variable {ran : Option (Except String Pass)} {history : List Iteration}

/-- The loop's variables behind a pass. -/
def Watch.settled (watch : Watch) (clockAfter : Nat) : Except String Pass → Watch
  | .ok .done => { watch with attempts := 0, retryAt := none }
  | .ok (.retry after) =>
      let attempts := nextAttempt watch.attempts
      let span := after.getD (backoff attempts) * nanosPerSecond
      { watch with attempts, retryAt := some (clockAfter + span) }
  | .ok .stopped => { watch with retryAt := none }
  | .error _ => { watch with event := false }

theorem instant_add_eq_some {now span sum : Nat} (h : instantAdd now span = some sum) :
    sum = now + span := by
  unfold instantAdd at h
  split_ifs at h
  cases h
  rfl

theorem end_pass_goes_on {label : String} {wait : Nat} (hwait : wait ≤ interval)
    (h : endPass once label watch wait = .goesOn watch' slept) :
    watch' = watch ∧ slept ≤ max interval minSleep := by
  unfold endPass at h
  split_ifs at h
  cases h
  exact ⟨rfl, max_le_max hwait (le_refl _)⟩

theorem after_pass_goes_on {result : Except String Pass}
    (h : watch.afterPass interval once moment result = .goesOn watch' slept) :
    watch' = watch.settled moment.clockAfter result ∧ slept ≤ max interval minSleep := by
  rcases result with error | (_ | after | _)
  · unfold Watch.afterPass at h
    cases hnoted : moment.noted with
    | error failure =>
        rw [hnoted] at h
        cases h
    | ok value =>
        rw [hnoted] at h
        exact end_pass_goes_on (le_refl _) h
  · exact end_pass_goes_on (le_refl _) h
  · rw [Watch.afterPass] at h
    generalize hspan :
      after.getD (backoff (nextAttempt watch.attempts)) * nanosPerSecond = span at h
    cases hadd : instantAdd moment.clockAfter span with
    | none =>
        rw [hadd, Option.elim_none] at h
        cases h
    | some retryAt =>
        rw [hadd, Option.elim_some] at h
        obtain ⟨hwatch, hslept⟩ := end_pass_goes_on (min_le_left _ _) h
        refine ⟨?_, hslept⟩
        rw [hwatch, Watch.settled, hspan, instant_add_eq_some hadd]
  · exact end_pass_goes_on (le_refl _) h

/-- What an iteration that goes on did: either no pass was run, and what was seen and set stands,
or one was, of the versions there were. -/
inductive WentOn (interval : Nat) (once : Bool) (watch : Watch) (moment : Moment) :
    Option (Except String Pass) → Watch → Prop where
  | quiet {watch' : Watch} (hseen : watch'.seen = watch.seen)
      (hattempts : watch'.attempts = watch.attempts) (hretry : watch'.retryAt = watch.retryAt)
      (hevent : watch.event = true → watch'.event = true) :
      WentOn interval once watch moment none watch'
  | passed {result : Except String Pass} {versions : Int × Int}
      (hversions : moment.versions = .ok versions)
      (hwants : watch.wantsPass once versions moment.clock = true) :
      WentOn interval once watch moment (some result)
        (Watch.settled { watch with event := true, seen := some versions } moment.clockAfter result)

theorem run_pass_goes_on
    (h : watch.runPass interval once moment = ⟨ran, .goesOn watch' slept⟩) :
    (∃ result, ran = some result ∧ watch' = watch.settled moment.clockAfter result) ∧
      slept ≤ max interval minSleep := by
  unfold Watch.runPass at h
  rcases hpaired : moment.paired with error | (_ | _)
  · rw [hpaired] at h
    cases h
  · rw [hpaired] at h
    cases hnoted : moment.noted with
    | error failure =>
        rw [hnoted] at h
        cases h
    | ok value =>
        rw [hnoted] at h
        injection h with hran hnext
        obtain ⟨hwatch, hslept⟩ := after_pass_goes_on hnext
        exact ⟨⟨_, hran.symm, hwatch⟩, hslept⟩
  · rw [hpaired] at h
    injection h with hran hnext
    obtain ⟨hwatch, hslept⟩ := after_pass_goes_on hnext
    exact ⟨⟨_, hran.symm, hwatch⟩, hslept⟩

theorem look_goes_on (hevent : watch.event = true)
    (h : watch.look interval once moment = ⟨ran, .goesOn watch' slept⟩) :
    WentOn interval once watch moment ran watch' ∧ slept ≤ max interval minSleep := by
  unfold Watch.look at h
  cases hversions : moment.versions with
  | error error =>
      rw [hversions] at h
      cases h
  | ok versions =>
      rw [hversions] at h
      dsimp only at h
      split_ifs at h with hwants
      · obtain ⟨⟨result, hran, hwatch⟩, hslept⟩ := run_pass_goes_on h
        have hopen : { watch with seen := some versions } =
            { watch with event := true, seen := some versions } := by rw [← hevent]
        rw [hran, hwatch, hopen]
        exact ⟨.passed hversions hwants, hslept⟩
      · injection h with hran hnext
        injection hnext with hwatch hslept
        rw [← hran, ← hwatch, ← hslept]
        refine ⟨.quiet rfl rfl rfl (fun h => h), max_le_max ?_ (le_refl _)⟩
        cases watch.retryAt with
        | none => exact le_refl _
        | some retryAt => exact min_le_left _ _

/-- An iteration that goes on did one of the two, and its sleep is no longer than the interval or
the shortest there is. -/
theorem iterate_goes_on (h : watch.iterate interval once moment = ⟨ran, .goesOn watch' slept⟩) :
    WentOn interval once watch moment ran watch' ∧ slept ≤ max interval minSleep := by
  unfold Watch.iterate at h
  by_cases hevent : watch.event = true
  · rw [if_pos hevent] at h
    exact look_goes_on hevent h
  · rw [if_neg hevent] at h
    cases hopened : moment.opened with
    | ok value =>
        rw [hopened] at h
        obtain ⟨hwent, hslept⟩ := look_goes_on rfl h
        refine ⟨?_, hslept⟩
        cases hwent with
        | quiet hseen hattempts hretry hopen =>
            exact .quiet hseen hattempts hretry (fun _ => hopen rfl)
        | passed hversions hwants => exact .passed hversions hwants
    | error error =>
        rw [hopened] at h
        cases hnoted : moment.noted with
        | error failure =>
            rw [hnoted] at h
            cases h
        | ok value =>
            rw [hnoted] at h
            injection h with hran hnext
            split_ifs at hnext
            injection hnext with hwatch hslept
            rw [← hran, ← hwatch, ← hslept]
            exact ⟨.quiet rfl rfl rfl (fun h => h), le_max_left _ _⟩

/-! ## The retry clock -/

/-- The seconds before the attempt behind so many retries: doubled from one, up to a minute. -/
theorem backoff_next_attempt (retries : Nat) :
    backoff (nextAttempt (min retries (2 ^ 32 - 1))) = min (2 ^ retries) 60 := by
  unfold backoff nextAttempt
  by_cases hsmall : retries ≤ 6
  · have hexponent : min (min (min retries (2 ^ 32 - 1) + 1) (2 ^ 32 - 1) - 1) 6 = retries := by
      omega
    rw [hexponent, Nat.shiftLeft_eq, one_mul]
  · have hexponent : min (min (min retries (2 ^ 32 - 1) + 1) (2 ^ 32 - 1) - 1) 6 = 6 := by
      omega
    have hlarge : 2 ^ 6 ≤ 2 ^ retries := Nat.pow_le_pow_right (by omega) (by omega)
    rw [hexponent, Nat.shiftLeft_eq]
    omega

/-- The loop counts the retries since a pass was done, as far as a `u32` goes, and holds the time of
the next attempt. -/
structure Counted (history : List Iteration) (watch : Watch) : Prop where
  attempts : watch.attempts = min (retriesSinceDone history) (2 ^ 32 - 1)
  retryAt : watch.retryAt = nextAttemptAt history

/-- The delay of a retry, from the loop's count. -/
theorem Counted.delay (h : Counted history watch) (after : Option Nat) :
    after.getD (backoff (nextAttempt watch.attempts)) = retryDelay history after := by
  rw [h.attempts, backoff_next_attempt, retryDelay]

/-- An iteration keeps the count. -/
theorem counted_step (h : Counted history watch)
    (hwent : WentOn interval once watch moment ran watch')
    (slept : Nat) : Counted (⟨moment, ran, slept⟩ :: history) watch' := by
  cases hwent with
  | quiet hseen hattempts hretry hevent =>
      exact ⟨hattempts.trans h.attempts, hretry.trans h.retryAt⟩
  | @passed result versions hversions hwants =>
      rcases result with error | (_ | after | _)
      · exact ⟨h.attempts, h.retryAt⟩
      · exact ⟨rfl, rfl⟩
      · refine ⟨?_, ?_⟩
        · show nextAttempt watch.attempts = min (retriesSinceDone history + 1) (2 ^ 32 - 1)
          rw [h.attempts, nextAttempt]
          omega
        · show some (moment.clockAfter + after.getD (backoff (nextAttempt watch.attempts)) *
            nanosPerSecond) = _
          rw [h.delay]
          rfl
      · exact ⟨h.attempts, rfl⟩

/-- The count holds wherever the loop gets. -/
theorem counted_of_reaches (h : Reaches interval once history watch) : Counted history watch := by
  induction h with
  | start => exact ⟨rfl, rfl⟩
  | step hpast hstep ih => exact counted_step ih (iterate_goes_on hstep).1 _

/-! ### Where it fails -/

/-- The iteration gets to a pass with a pairing: the event database is open, the versions are read,
and a pass is wanted. -/
def Watch.GetsToPass (once : Bool) (watch : Watch) (moment : Moment) : Prop :=
  (watch.event = true ∨ moment.opened = .ok ()) ∧
    (∃ versions, moment.versions = .ok versions ∧
      watch.wantsPass once versions moment.clock = true) ∧
    moment.paired = .ok true

/-- The pass of this iteration sets no attempt beyond the end of the clock: a `Retry` sums the time
and its delay to an instant there is. -/
def RetryFits (history : List Iteration) (moment : Moment) : Prop :=
  ∀ after, moment.passed = .ok (.retry after) →
    moment.clockAfter + retryDelay history after * nanosPerSecond ≤ instantMax

theorem instant_add_eq_none {now span : Nat} :
    instantAdd now span = none ↔ ¬ now + span ≤ instantMax := by
  unfold instantAdd
  split_ifs with hfits
  · exact ⟨nofun, fun h => absurd hfits h⟩
  · exact ⟨fun _ => hfits, fun _ => rfl⟩

theorem end_pass_ne_panicked {label : String} {wait : Nat} :
    endPass once label watch wait ≠ .panicked := by
  unfold endPass
  split_ifs <;> intro h <;> cases h

/-- A pass panics the loop where it asks for a retry beyond the end of the clock, and only there. -/
theorem after_pass_panics {result : Except String Pass} :
    watch.afterPass interval once moment result = .panicked ↔
      ∃ after, result = .ok (.retry after) ∧
        ¬ moment.clockAfter + after.getD (backoff (nextAttempt watch.attempts)) * nanosPerSecond ≤
          instantMax := by
  rcases result with error | (_ | after | _)
  · refine ⟨fun h => ?_, fun ⟨after, hresult, _⟩ => nomatch hresult⟩
    unfold Watch.afterPass at h
    cases hnoted : moment.noted with
    | error failure =>
        rw [hnoted] at h
        cases h
    | ok value =>
        rw [hnoted] at h
        exact absurd h end_pass_ne_panicked
  · exact ⟨fun h => absurd h end_pass_ne_panicked, fun ⟨after, hresult, _⟩ => nomatch hresult⟩
  · rw [Watch.afterPass]
    generalize hspan : after.getD (backoff (nextAttempt watch.attempts)) * nanosPerSecond = span
    cases hadd : instantAdd moment.clockAfter span with
    | none =>
        rw [Option.elim_none]
        refine ⟨fun _ => ⟨after, rfl, ?_⟩, fun _ => rfl⟩
        rw [hspan]
        exact instant_add_eq_none.mp hadd
    | some retryAt =>
        rw [Option.elim_some]
        refine ⟨fun h => absurd h end_pass_ne_panicked, ?_⟩
        intro ⟨after', hresult, hbeyond⟩
        cases hresult
        rw [hspan, ← instant_add_eq_none, hadd] at hbeyond
        cases hbeyond
  · exact ⟨fun h => absurd h end_pass_ne_panicked, fun ⟨after, hresult, _⟩ => nomatch hresult⟩

theorem run_pass_panics :
    (watch.runPass interval once moment).next = .panicked ↔
      moment.paired = .ok true ∧ ∃ after, moment.passed = .ok (.retry after) ∧
        ¬ moment.clockAfter + after.getD (backoff (nextAttempt watch.attempts)) * nanosPerSecond ≤
          instantMax := by
  unfold Watch.runPass
  rcases hpaired : moment.paired with error | (_ | _)
  · exact ⟨nofun, nofun⟩
  · refine ⟨fun h => ?_, nofun⟩
    cases hnoted : moment.noted with
    | error failure =>
        rw [hnoted] at h
        cases h
    | ok value =>
        rw [hnoted] at h
        have hstopped : watch.afterPass interval once moment (.ok .stopped) = .panicked := h
        obtain ⟨after, hresult, hbeyond⟩ := after_pass_panics.mp hstopped
        cases hresult
  · rw [← after_pass_panics]
    exact ⟨fun h => ⟨rfl, h⟩, fun h => h.2⟩

theorem look_panics :
    (watch.look interval once moment).next = .panicked ↔
      (∃ versions, moment.versions = .ok versions ∧
        watch.wantsPass once versions moment.clock = true) ∧
      moment.paired = .ok true ∧ ∃ after, moment.passed = .ok (.retry after) ∧
        ¬ moment.clockAfter + after.getD (backoff (nextAttempt watch.attempts)) * nanosPerSecond ≤
          instantMax := by
  unfold Watch.look
  cases hversions : moment.versions with
  | error error =>
      refine ⟨nofun, ?_⟩
      intro ⟨⟨versions, hread, _⟩, _⟩
      cases hread
  | ok versions =>
      dsimp only
      split_ifs with hwants
      · rw [run_pass_panics]
        exact ⟨fun h => ⟨⟨versions, rfl, hwants⟩, h⟩, fun h => h.2⟩
      · refine ⟨nofun, ?_⟩
        intro ⟨⟨versions', hread, hwants'⟩, _⟩
        cases hread
        exact absurd hwants' hwants

/-- The iterations that panic. -/
theorem iterate_panics :
    (watch.iterate interval once moment).next = .panicked ↔
      watch.GetsToPass once moment ∧ ∃ after, moment.passed = .ok (.retry after) ∧
        ¬ moment.clockAfter + after.getD (backoff (nextAttempt watch.attempts)) * nanosPerSecond ≤
          instantMax := by
  unfold Watch.iterate Watch.GetsToPass
  by_cases hevent : watch.event = true
  · rw [if_pos hevent, look_panics]
    exact ⟨fun ⟨hwants, hpaired, hafter⟩ => ⟨⟨.inl hevent, hwants, hpaired⟩, hafter⟩,
      fun ⟨⟨_, hwants, hpaired⟩, hafter⟩ => ⟨hwants, hpaired, hafter⟩⟩
  · rw [if_neg hevent]
    cases hopened : moment.opened with
    | ok value =>
        show (Watch.look interval once { watch with event := true } moment).next = .panicked ↔ _
        rw [look_panics]
        exact ⟨fun ⟨hwants, hpaired, hafter⟩ => ⟨⟨.inr rfl, hwants, hpaired⟩, hafter⟩,
          fun ⟨⟨_, hwants, hpaired⟩, hafter⟩ => ⟨hwants, hpaired, hafter⟩⟩
    | error error =>
        refine ⟨fun h => ?_, ?_⟩
        · cases hnoted : moment.noted with
          | error failure =>
              rw [hnoted] at h
              cases h
          | ok value =>
              rw [hnoted] at h
              dsimp only at h
              split_ifs at h
        · intro ⟨⟨hopen, _⟩, _⟩
          rcases hopen with hopen | hopen
          · exact absurd hopen hevent
          · cases hopen

/-! ### When a pass is run -/

/-- The pairing is read, and where there is none a note of it can be taken. -/
def Moment.KnowsPairing (moment : Moment) : Prop :=
  moment.paired = .ok true ∨ moment.paired = .ok false ∧ moment.noted = .ok ()

theorem run_pass_ran :
    (watch.runPass interval once moment).ran.isSome = true ↔ moment.KnowsPairing := by
  unfold Watch.runPass Moment.KnowsPairing
  rcases hpaired : moment.paired with error | (_ | _)
  · simp
  · cases hnoted : moment.noted with
    | error failure => simp
    | ok value => simp
  · simp

theorem look_ran :
    (watch.look interval once moment).ran.isSome = true ↔
      (∃ versions, moment.versions = .ok versions ∧
        watch.wantsPass once versions moment.clock = true) ∧ moment.KnowsPairing := by
  unfold Watch.look
  cases hversions : moment.versions with
  | error error =>
      refine ⟨nofun, ?_⟩
      intro ⟨⟨versions, hread, _⟩, _⟩
      cases hread
  | ok versions =>
      dsimp only
      split_ifs with hwants
      · rw [run_pass_ran]
        exact ⟨fun h => ⟨⟨versions, rfl, hwants⟩, h⟩, fun h => h.2⟩
      · refine ⟨nofun, ?_⟩
        intro ⟨⟨versions', hread, hwants'⟩, _⟩
        cases hread
        exact absurd hwants' hwants

/-- An iteration runs a pass where the event database is open, the versions are read, a pass is
wanted and the pairing is known. -/
theorem iterate_ran :
    (watch.iterate interval once moment).ran.isSome = true ↔
      (watch.event = true ∨ moment.opened = .ok ()) ∧
        (∃ versions, moment.versions = .ok versions ∧
          watch.wantsPass once versions moment.clock = true) ∧ moment.KnowsPairing := by
  unfold Watch.iterate
  by_cases hevent : watch.event = true
  · rw [if_pos hevent, look_ran]
    exact ⟨fun h => ⟨.inl hevent, h⟩, fun h => h.2⟩
  · rw [if_neg hevent]
    cases hopened : moment.opened with
    | ok value =>
        show (Watch.look interval once { watch with event := true } moment).ran.isSome = true ↔ _
        rw [look_ran]
        exact ⟨fun h => ⟨.inr rfl, h⟩, fun h => h.2⟩
    | error error =>
        refine ⟨fun h => ?_, ?_⟩
        · cases hnoted : moment.noted with
          | error failure =>
              rw [hnoted] at h
              cases h
          | ok value =>
              rw [hnoted] at h
              cases h
        · intro ⟨hopen, _⟩
          rcases hopen with hopen | hopen
          · exact absurd hopen hevent
          · cases hopen

/-! ### What it keeps -/

/-- The retry clock in an iteration behind some others: no panic, no pass before the next attempt
unless an operator asked for it, no sleep beyond the interval or the shortest there is, the next
attempt the delay after a `Retry`, and the count at nothing behind a `Done`. -/
structure RetryClockHolds (interval : Nat) (once : Bool) (history : List Iteration)
    (moment : Moment) (turn : Turn) : Prop where
  no_panic : turn.next ≠ .panicked
  not_early : turn.ran.isSome = true → once = true ∨
    ∀ due ∈ nextAttemptAt history, due ≤ moment.clock
  bounded : ∀ watch slept, turn.next = .goesOn watch slept → slept ≤ max interval minSleep
  delayed : ∀ after watch slept, turn.ran = some (.ok (.retry after)) →
    turn.next = .goesOn watch slept →
      watch.retryAt =
        some (moment.clockAfter + retryDelay history after * nanosPerSecond)
  restarts : ∀ watch slept, turn.ran = some (.ok .done) → turn.next = .goesOn watch slept →
    watch.attempts = 0 ∧ watch.retryAt = none

/-- No pass is wanted before the next attempt unless an operator asks for one. -/
theorem not_waiting_of_wants_pass {versions : Int × Int} {now : Nat}
    (h : watch.wantsPass once versions now = true) :
    once = true ∨ ∀ due ∈ watch.retryAt, due ≤ now := by
  unfold Watch.wantsPass at h
  simp only [Bool.or_eq_true, Bool.and_eq_true, Bool.not_eq_true'] at h
  rcases h with honce | ⟨hwaiting, _⟩
  · exact .inl honce
  · right
    intro due hdue
    rw [Option.mem_def] at hdue
    rw [Watch.isWaiting, hdue, Option.any_some, decide_eq_false_iff_not] at hwaiting
    omega

theorem not_early_of_reaches (hreach : Reaches interval once history watch)
    (hran : (watch.iterate interval once moment).ran.isSome = true) :
    once = true ∨ ∀ due ∈ nextAttemptAt history, due ≤ moment.clock := by
  obtain ⟨_, ⟨versions, _, hwants⟩, _⟩ := iterate_ran.mp hran
  rw [← (counted_of_reaches hreach).retryAt]
  exact not_waiting_of_wants_pass hwants

/-- What a `Retry` sets. -/
theorem delayed_of_reaches (hreach : Reaches interval once history watch) {after : Option Nat}
    (hstep : watch.iterate interval once moment =
      ⟨some (.ok (.retry after)), .goesOn watch' slept⟩) :
    watch'.retryAt = some (moment.clockAfter + retryDelay history after * nanosPerSecond) :=
  (counted_step (counted_of_reaches hreach) (iterate_goes_on hstep).1 slept).retryAt

/-- What a `Done` leaves. -/
theorem restarts_of_reaches (hreach : Reaches interval once history watch)
    (hstep : watch.iterate interval once moment = ⟨some (.ok .done), .goesOn watch' slept⟩) :
    watch'.attempts = 0 ∧ watch'.retryAt = none := by
  have hcount := counted_step (counted_of_reaches hreach) (iterate_goes_on hstep).1 slept
  exact ⟨hcount.attempts, hcount.retryAt⟩

end Iterate

/-- The first iteration, with a pass answered by a `Retry` that names so many seconds. -/
def Moment.retryIn (seconds : Nat) : Moment :=
  ⟨.ok (), .ok (1, 1), 0, .ok true, .ok (.retry (some seconds)), nanosPerSecond, .ok ()⟩

end Splitforge.Raceday
