import Splitforge.Thingmagic.ProviderReads
import Splitforge.Thingmagic.StartOrder

/-!
# Connections, as they are reported

A connection is announced once, and its end is reported before the next is announced. How long the
provider waits behind each end follows from what it reported: a connection that was announced
forgets the failures before it, and every other attempt is one more.
-/

namespace Splitforge.Thingmagic

open Splitforge.Domain Splitforge.Library

/-! ## What the reports say -/

/-- What the events sent so far say of the connections: whether one is up, how many attempts in a
row proved nothing, how many were made, and the delays behind them. -/
structure Schedule where
  up : Bool
  failures : Nat
  attempts : Nat
  delays : List Nat

/-- Nothing has been reported. -/
def Schedule.new : Schedule := ⟨false, 0, 0, []⟩

/-- What one more event says. -/
def Schedule.next (backoff : Backoff) (schedule : Schedule) (event : ReaderEvent) : Schedule :=
  match event with
  | .connected => { schedule with up := true }
  | .disconnected _ =>
      let failures := if schedule.up then 0 else nextFailure schedule.failures
      let attempts := schedule.attempts + 1
      { up := false
        failures
        attempts
        delays := schedule.delays ++ [backoff.delay failures (UInt64.ofNat attempts)] }
  | _ => schedule

/-- A connection is announced when none is up, and one that was announced can only end. -/
def Schedule.Lawful (schedule : Schedule) (event : ReaderEvent) : Prop :=
  match event with
  | .connected => schedule.up = false
  | .disconnected cause => schedule.up = true → cause = .ended
  | _ => True

/-- An event that says nothing of the connection. -/
def ReaderEvent.Aside (event : ReaderEvent) : Prop :=
  event ≠ .connected ∧ ∀ cause, event ≠ .disconnected cause

/-- Such events change nothing. -/
theorem schedule_aside (backoff : Backoff) (schedule : Schedule) {events : List ReaderEvent}
    (h : ∀ event ∈ events, event.Aside) :
    run (Schedule.next backoff) schedule events = schedule ∧
      Allowed (Schedule.next backoff) Schedule.Lawful schedule events := by
  induction events with
  | nil => exact ⟨rfl, trivial⟩
  | cons event events ih =>
      obtain ⟨hevent, hevents⟩ := List.forall_mem_cons.mp h
      obtain ⟨hrun, hallowed⟩ := ih hevents
      cases event with
      | connected => exact absurd rfl hevent.1
      | disconnected cause => exact absurd rfl (hevent.2 cause)
      | read => exact ⟨hrun, trivial, hallowed⟩
      | faults => exact ⟨hrun, trivial, hallowed⟩
      | transmitPower => exact ⟨hrun, trivial, hallowed⟩
      | alive => exact ⟨hrun, trivial, hallowed⟩

/-! ## The delays -/

/-- A delay is in the upper half of its window. -/
theorem delay_within (backoff : Backoff) (failures : Nat) (seed : UInt64) :
    backoff.capped failures / 2 ≤ backoff.delay failures seed ∧
      backoff.delay failures seed ≤ backoff.capped failures := by
  unfold Backoff.delay
  simp only
  have hspread : (jitter failures seed).toNat % 1000 ≤ 1000 :=
    (Nat.mod_lt _ (by omega)).le
  have hmore : backoff.capped failures / 2 * ((jitter failures seed).toNat % 1000) / 1000 ≤
      backoff.capped failures / 2 := by
    refine Nat.div_le_of_le_mul ?_
    rw [Nat.mul_comm 1000]
    exact Nat.mul_le_mul_left _ hspread
  omega

/-- The window only grows with the failures. -/
theorem capped_mono (backoff : Backoff) {failures more : Nat} (h : failures ≤ more) :
    backoff.capped failures ≤ backoff.capped more := by
  unfold Backoff.capped
  have hpow : 2 ^ min failures 16 ≤ 2 ^ min more 16 :=
    Nat.pow_le_pow_right (by omega) (min_le_min_right 16 h)
  exact min_le_min_right _ (min_le_min_right _ (Nat.mul_le_mul_left _ hpow))

/-- Every delay is at most the longest, and at least half of the shortest window. -/
theorem delay_bounded (backoff : Backoff) (failures : Nat) (seed : UInt64) :
    backoff.capped 0 / 2 ≤ backoff.delay failures seed ∧
      backoff.delay failures seed ≤ backoff.max := by
  obtain ⟨hlow, hhigh⟩ := delay_within backoff failures seed
  refine ⟨(Nat.div_le_div_right (capped_mono backoff (Nat.zero_le failures))).trans hlow, ?_⟩
  exact hhigh.trans (min_le_right _ _)

/-- What is reported asks for no other delays. -/
theorem schedule_delays (backoff : Backoff) (events : List ReaderEvent) :
    ∀ delay ∈ (run (Schedule.next backoff) .new events).delays,
      backoff.capped 0 / 2 ≤ delay ∧ delay ≤ backoff.max := by
  refine @run_keeps _ _ (Schedule.next backoff) (fun schedule => ∀ delay ∈ schedule.delays,
    backoff.capped 0 / 2 ≤ delay ∧ delay ≤ backoff.max) ?_ _ ?_ events
  · intro schedule event h delay hdelay
    cases event with
    | disconnected cause =>
        rcases List.mem_append.mp hdelay with hbefore | hlast
        · exact h delay hbefore
        · rw [List.mem_singleton.mp hlast]
          exact delay_bounded _ _ _
    | connected => exact h delay hdelay
    | read => exact h delay hdelay
    | faults => exact h delay hdelay
    | transmitPower => exact h delay hdelay
    | alive => exact h delay hdelay
  · intro delay hdelay
    cases hdelay

/-! ## The start sequence of a connection -/

/-- What a connection keeps of its sequence: only a command that is left is awaited, none is behind
a start, and without a sequence nothing is. -/
structure Pump.Sound (starts : Bool) (pump : Pump) : Prop where
  left : pump.starting.deadline.isSome = true → pump.starting.next < pump.starting.steps.length
  started : pump.progress = .started → pump.starting.deadline = none
  idle : starts = false → pump.progress = .waiting ∧ pump.starting.deadline = none

/-- Sending the next command keeps a connection sound. -/
theorem sound_send {accepts : Nat → Bool} {pump : Pump} (starting : Starting) (port : PortLog)
    (now : Nat) (hprogress : pump.progress ≠ .started) :
    (pump.settle (starting.send accepts port now)).Sound true := by
  unfold Starting.send
  by_cases hleft : starting.next < starting.steps.length
  · rw [if_pos hleft]
    by_cases haccepts : accepts port.attempts = true
    · rw [if_pos haccepts]
      refine ⟨fun _ => hleft, ?_, ?_⟩
      · intro h
        cases h
      · intro h
        cases h
    · rw [if_neg haccepts]
      refine ⟨fun _ => hleft, fun h => absurd h hprogress, ?_⟩
      intro h
      cases h
  · rw [if_neg hleft]
    refine ⟨?_, fun _ => rfl, ?_⟩
    · intro h
      cases h
    · intro h
      cases h

variable {pump : Pump} {starts : Bool}

/-- A sound connection that awaits an answer was told to start, and has not. -/
theorem Pump.Sound.awaits (h : pump.Sound starts) {step : Step}
    (hawaited : pump.starting.awaited = some step) :
    starts = true ∧ pump.progress ≠ .started := by
  have hdeadline : pump.starting.deadline ≠ none := by
    intro hnone
    rw [Starting.awaited, hnone] at hawaited
    cases hawaited
  refine ⟨?_, fun hstarted => hdeadline (h.started hstarted)⟩
  cases starts with
  | true => rfl
  | false => exact absurd (h.idle rfl).2 hdeadline

/-- Hearing a frame keeps a connection sound, and one that started stays started. -/
theorem Pump.Sound.hear (surroundings : Surroundings) (h : pump.Sound starts)
    (response : Response) :
    (pump.hear surroundings response).Sound starts ∧
      (pump.progress = .started → (pump.hear surroundings response).progress = .started) := by
  by_cases hclaims : pump.starting.claims response = true
  · obtain ⟨step, hawaited, hanswers⟩ := (claims_iff _ _).mp hclaims
    obtain ⟨rfl, hprogress⟩ := h.awaits hawaited
    have hanswer : ((pump.heard response).settle (pump.starting.answer surroundings.accepts
        response (pump.heard response).port (surroundings.clock pump.looks))).Sound true := by
      unfold Starting.answer
      rw [hawaited]
      dsimp only
      by_cases hrefuses : step.mustSucceed = true ∧ ¬ response.isOk = true
      · rw [if_pos hrefuses]
        refine ⟨h.left, ?_, ?_⟩
        · intro hstarted
          cases hstarted
        · intro hfalse
          cases hfalse
      · rw [if_neg hrefuses]
        exact sound_send _ _ _ hprogress
    refine ⟨?_, fun hstarted => absurd hstarted hprogress⟩
    unfold Pump.hear
    dsimp only
    rw [if_pos hclaims]
    exact ⟨hanswer.left, hanswer.started, hanswer.idle⟩
  · rw [hear_ignored surroundings hclaims]
    exact ⟨⟨h.left, h.started, h.idle⟩, id⟩

/-- Checking the deadline does too. -/
theorem Pump.Sound.checkDeadline (surroundings : Surroundings) (h : pump.Sound true)
    (ended : Bool) : (pump.checkDeadline surroundings ended).Sound true ∧
      (pump.progress = .started →
        (pump.checkDeadline surroundings ended).progress = .started) := by
  unfold Pump.checkDeadline
  by_cases hdue : ended = false ∧ pump.written = true ∧ pump.progress = .waiting
  · rw [if_pos hdue]
    have hprogress : pump.progress ≠ .started := by
      rw [hdue.2.2]
      intro h
      cases h
    refine ⟨?_, fun hstarted => absurd hstarted hprogress⟩
    unfold Starting.tick
    cases hdeadline : pump.starting.deadline with
    | none =>
        -- nothing is awaited
        have hawaited : pump.starting.awaited = none := by
          rw [Starting.awaited, hdeadline]
          rfl
        rw [hawaited]
        dsimp only
        exact ⟨h.left, fun _ => hdeadline, fun hfalse => absurd hfalse (by simp)⟩
    | some deadline =>
        have hleft := h.left (Option.isSome_of_eq_some hdeadline)
        have hawaited : pump.starting.awaited =
            some (pump.starting.steps.get ⟨pump.starting.next, hleft⟩) := by
          rw [Starting.awaited, hdeadline]
          exact List.getElem?_eq_getElem hleft
        rw [hawaited]
        dsimp only
        have hheld : ∀ {progress : Progress}, progress ≠ .started →
            (pump.settle (some progress, pump.starting, pump.port)).Sound true := by
          intro progress hnot
          refine ⟨h.left, fun hstarted => absurd hstarted hnot, ?_⟩
          intro hfalse
          cases hfalse
        split
        · exact hheld (by intro h; cases h)
        · split
          · exact hheld (by intro h; cases h)
          · exact sound_send _ _ _ hprogress
  · rw [if_neg hdue]
    exact ⟨h, id⟩

variable {D : Type} [TagReportDecoder D]

/-- A turn keeps a connection sound, and one that started stays started. -/
theorem sound_heard {connection : Connection D} (h : connection.pump.Sound starts)
    (read : PortRead) :
    ((connection.heard read).checked starts read).pump.Sound starts ∧
      (connection.pump.progress = .started →
        ((connection.heard read).checked starts read).pump.progress = .started) := by
  have hrun : ∀ (frames : List Response) {connection : Connection D},
      connection.pump.Sound starts →
        (run Connection.hear connection frames).pump.Sound starts ∧
          (connection.pump.progress = .started →
            (run Connection.hear connection frames).pump.progress = .started) := by
    intro frames
    induction frames with
    | nil => exact fun h => ⟨h, id⟩
    | cons response frames ih =>
        intro connection h
        have hpump : (connection.hear response).pump =
            connection.pump.hear connection.machine.toSurroundings response := by
          unfold Connection.hear
          by_cases hclaims : connection.pump.starting.claims response = true
          · simp only [hclaims, if_true]
          · simp only [hclaims]
            rfl
        obtain ⟨hsound, hstarted⟩ := h.hear connection.machine.toSurroundings response
        rw [← hpump] at hsound hstarted
        obtain ⟨hrest, hkept⟩ := ih hsound
        exact ⟨hrest, fun hprogress => hkept (hstarted hprogress)⟩
  have hopened : ({ connection with pump := connection.pump.opened read } :
      Connection D).pump.Sound starts := ⟨h.left, h.started, h.idle⟩
  obtain ⟨hheard, hstarted⟩ := hrun (read.frames connection.pump.reassembler).2 hopened
  cases starts with
  | false => exact ⟨hheard, hstarted⟩
  | true =>
      obtain ⟨hchecked, hkept⟩ :=
        hheard.checkDeadline (connection.heard read).machine.toSurroundings read.ends
      unfold Connection.checked
      rw [if_pos rfl]
      exact ⟨hchecked, fun hprogress => hkept (hstarted hprogress)⟩

omit [TagReportDecoder D] in
/-- A connection begins sound. -/
theorem sound_begin (start : Option (List Step)) (machine : Machine) (decoder : D) :
    (Connection.begin start machine decoder).pump.Sound start.isSome := by
  cases start with
  | none =>
      refine ⟨?_, ?_, fun _ => ⟨rfl, rfl⟩⟩
      · intro h
        cases h
      · intro h
        cases h
  | some sequence =>
      have hsend := @sound_send machine.accepts (Connection.begin none machine decoder).pump
        (.new sequence) ⟨0, []⟩ (machine.clock 0) (by intro h; cases h)
      have hbegin : ∀ pump : Pump, pump.starting =
            ((Starting.new sequence).send machine.accepts ⟨0, []⟩ (machine.clock 0)).2.1 →
          pump.progress = ((Starting.new sequence).send machine.accepts ⟨0, []⟩
            (machine.clock 0)).1.getD .waiting → pump.Sound true := by
        intro pump hstarting hprogress
        refine ⟨?_, ?_, fun hfalse => absurd hfalse (by simp)⟩
        · rw [hstarting]
          exact hsend.left
        · rw [hstarting, hprogress]
          exact hsend.started
      show (Pump.begin machine.toSurroundings sequence).Sound true
      unfold Pump.begin
      dsimp only
      split
      · exact hbegin _ rfl rfl
      · exact hbegin _ rfl rfl

/-! ## Delays and reports -/

/-- What is reported of later attempts comes behind. -/
theorem delays_front (backoff : Backoff) (schedule : Schedule) (events : List ReaderEvent) :
    schedule.delays <+: (run (Schedule.next backoff) schedule events).delays := by
  induction events generalizing schedule with
  | nil => exact List.prefix_refl _
  | cons event events ih =>
      refine List.IsPrefix.trans ?_ (ih (schedule.next backoff event))
      cases event with
      | disconnected cause => exact List.prefix_append _ _
      | connected => exact List.prefix_refl _
      | read => exact List.prefix_refl _
      | faults => exact List.prefix_refl _
      | transmitPower => exact List.prefix_refl _
      | alive => exact List.prefix_refl _

/-- The events of a turn announce the connection when the turn does, and say nothing else of it. -/
theorem schedule_report (backoff : Backoff) (reader : ThingMagicReader D)
    (connection : Connection D) (read : PortRead) (elapsed : Nat) {schedule : Schedule}
    (hup : schedule.up = connection.pump.announced) :
    run (Schedule.next backoff) schedule (reader.report connection read elapsed).events =
        { schedule with
          up := (reader.report connection read elapsed).connection.pump.announced } ∧
      Allowed (Schedule.next backoff) Schedule.Lawful schedule
        (reader.report connection read elapsed).events := by
  have haside : ∀ event ∈ (connection.pump.power.map fun report =>
        ReaderEvent.transmitPower report.transmitPower).toList ++
      connection.reads.map .read ++ reader.reportFaults
        ⟨reader.framingBefore + connection.pump.reassembler.stats.errors,
          TagReportDecoder.faults connection.decoder⟩ ++
      (if reader.heardReported < TagReportDecoder.heard connection.decoder then
        [ReaderEvent.alive] else []), event.Aside := by
    intro event hevent
    simp only [List.mem_append, Option.mem_toList, List.mem_map, Option.map_eq_some_iff] at hevent
    rcases hevent with ((⟨power, -, rfl⟩ | ⟨message, -, rfl⟩) | hfaults) | halive
    · simp [ReaderEvent.Aside]
    · simp [ReaderEvent.Aside]
    · unfold ThingMagicReader.reportFaults at hfaults
      split at hfaults
      · cases hfaults
      · cases List.mem_singleton.mp hfaults
        simp [ReaderEvent.Aside]
    · split at halive
      · cases List.mem_singleton.mp halive
        simp [ReaderEvent.Aside]
      · cases halive
  unfold ThingMagicReader.report
  simp only [List.append_assoc] at haside ⊢
  cases hannounces : !connection.pump.announced && reader.established connection.pump elapsed with
  | false =>
      obtain ⟨hrun, hallowed⟩ := schedule_aside backoff schedule haside
      simp only [Bool.false_eq_true, if_false, List.nil_append, Bool.or_false, ← hup]
      exact ⟨hrun, hallowed⟩
  | true =>
      have hdown : schedule.up = false := by
        rw [hup]
        simp only [Bool.and_eq_true, Bool.not_eq_true'] at hannounces
        exact hannounces.1
      obtain ⟨hrun, hallowed⟩ := schedule_aside backoff { schedule with up := true } haside
      simp only [if_true, Bool.or_true]
      exact ⟨hrun, hdown, hallowed⟩

/-- The reports and the delays of a provider agree. -/
inductive Scheduled (backoff : Backoff) (start : Option (List Step)) (provider : Provider D) :
    Prop where
  | waiting (hbackoff : provider.reader.backoff = backoff) (hstart : provider.reader.start = start)
      (hstanding : provider.standing = .waiting)
      (hschedule : run (Schedule.next backoff) .new provider.sent =
        ⟨false, provider.failures, provider.attempt, provider.delays⟩)
      (hallowed : Allowed (Schedule.next backoff) Schedule.Lawful .new provider.sent)
  | reading (hbackoff : provider.reader.backoff = backoff) (hstart : provider.reader.start = start)
      {connection : Connection D} (hstanding : provider.standing = .reading connection)
      {attempts : Nat} (hattempt : provider.attempt = attempts + 1)
      (hschedule : run (Schedule.next backoff) .new provider.sent =
        ⟨connection.pump.announced, provider.failures, attempts, provider.delays⟩)
      (hallowed : Allowed (Schedule.next backoff) Schedule.Lawful .new provider.sent)
      (hsound : connection.pump.Sound start.isSome)
      (hstarted : start.isSome = true → connection.pump.announced = true →
        connection.pump.progress = .started)
  | stopped (hstanding : provider.standing = .stopped)
      (hallowed : Allowed (Schedule.next backoff) Schedule.Lawful .new provider.sent)
      (hdelays : provider.delays <+: (run (Schedule.next backoff) .new provider.sent).delays)

variable {backoff : Backoff} {start : Option (List Step)} {provider : Provider D}

omit [TagReportDecoder D] in
/-- A consumer that leaves has taken reports that are in order. -/
theorem scheduled_taken {events : List ReaderEvent}
    (hdelays : provider.delays <+: (run (Schedule.next backoff) .new provider.sent).delays)
    (hallowed : Allowed (Schedule.next backoff) Schedule.Lawful .new (provider.sent ++ events))
    (consumer : Consumer) :
    Allowed (Schedule.next backoff) Schedule.Lawful .new
        (provider.sent ++ consumer.taken events) ∧
      provider.delays <+: (run (Schedule.next backoff) .new
        (provider.sent ++ consumer.taken events)).delays := by
  refine ⟨hallowed.before ?_, ?_⟩
  · exact (List.prefix_append_right_inj _).mpr (taken_front consumer events)
  · rw [run_append]
    exact hdelays.trans (delays_front _ _ _)

omit [TagReportDecoder D] in
/-- The end of an attempt, behind reports that say whether it proved itself. -/
theorem scheduled_conclude (hbackoff : provider.reader.backoff = backoff)
    (hstart : provider.reader.start = start) {established : Bool} {events : List ReaderEvent}
    {cause : Disconnection} {attempts : Nat} (hattempt : provider.attempt = attempts + 1)
    (hdelays : provider.delays <+: (run (Schedule.next backoff) .new provider.sent).delays)
    (hschedule : run (Schedule.next backoff) .new (provider.sent ++ events) =
      ⟨established, provider.failures, attempts, provider.delays⟩)
    (hallowed : Allowed (Schedule.next backoff) Schedule.Lawful .new (provider.sent ++ events))
    (hcause : established = true → cause = .ended) (consumer : Consumer) :
    Scheduled backoff start (provider.conclude established events cause consumer) := by
  have hall : Allowed (Schedule.next backoff) Schedule.Lawful .new
      (provider.sent ++ (events ++ [.disconnected cause])) := by
    rw [← List.append_assoc, allowed_append, hschedule]
    exact ⟨hallowed, hcause, trivial⟩
  rcases conclude_cases provider established events cause consumer with
    ⟨hwaits, hsent, hslept⟩ | ⟨hstops, hslept⟩
  · refine .waiting ?_ ?_ hwaits ?_ ?_
    · cases established <;> exact hbackoff
    · cases established <;> exact hstart
    · rw [hsent, ← List.append_assoc, run_append, hschedule, hslept, hbackoff]
      show Schedule.mk _ _ _ _ = Schedule.mk _ _ provider.attempt _
      rw [hattempt]
      rfl
    · rw [hsent]
      exact hall
  · obtain ⟨htaken, hfront⟩ := scheduled_taken hdelays hall consumer
    refine .stopped hstops htaken ?_
    rw [hslept]
    exact hfront

/-- Neither a frame nor the deadline announces a connection. -/
theorem announced_heard (connection : Connection D) (starts : Bool) (read : PortRead) :
    ((connection.heard read).checked starts read).pump.announced = connection.pump.announced := by
  have hrun : ∀ (frames : List Response) (connection : Connection D),
      (run Connection.hear connection frames).pump.announced = connection.pump.announced := by
    intro frames
    induction frames with
    | nil => exact fun connection => rfl
    | cons response frames ih =>
        intro connection
        refine (ih (connection.hear response)).trans ?_
        unfold Connection.hear Pump.hear
        by_cases hclaims : connection.pump.starting.claims response = true
        · simp only [hclaims, if_true]
          rfl
        · simp only [hclaims]
          rfl
  have hheard : (connection.heard read).pump.announced = connection.pump.announced :=
    hrun _ { connection with pump := connection.pump.opened read }
  cases starts with
  | false => exact hheard
  | true =>
      refine Eq.trans ?_ hheard
      show (Pump.checkDeadline _ (connection.heard read).pump read.ends).announced = _
      unfold Pump.checkDeadline
      split <;> rfl

/-- A connection that is announced by the end of a turn has started, if it was told to, and so
nothing refused it. -/
theorem turn_announced {connection : Connection D} (hstart : provider.reader.start = start)
    (hsound : connection.pump.Sound start.isSome)
    (hstarted : start.isSome = true → connection.pump.announced = true →
      connection.pump.progress = .started) (read : PortRead) (elapsed : Nat)
    (hannounced : (provider.reader.turn connection read elapsed).connection.pump.announced =
      true) :
    (start.isSome = true →
      (provider.reader.turn connection read elapsed).connection.pump.progress = .started) ∧
      ∀ cause, (provider.reader.turn connection read elapsed).ended = some cause →
        cause = .ended := by
  subst hstart
  obtain ⟨hafter, hkept⟩ := sound_heard hsound read
  have hsame := announced_heard connection provider.reader.start.isSome read
  have hprogress : provider.reader.start.isSome = true →
      ((connection.heard read).checked provider.reader.start.isSome read).pump.progress =
        .started := by
    intro hstarts
    cases hbefore : connection.pump.announced with
    | true => exact hkept (hstarted hstarts hbefore)
    | false =>
        -- the turn announces it, which takes a start
        rw [ThingMagicReader.turn, ThingMagicReader.report] at hannounced
        simp only [hsame, hbefore, Bool.false_or, Bool.not_false, Bool.true_and] at hannounced
        rw [ThingMagicReader.established, if_pos hstarts] at hannounced
        exact of_decide_eq_true hannounced
  refine ⟨hprogress, ?_⟩
  intro cause hended
  have hunrefused : ∀ refusal, ((connection.heard read).checked
      provider.reader.start.isSome read).pump.progress ≠ .refused refusal := by
    intro refusal hrefused
    cases hstarts : provider.reader.start.isSome with
    | true =>
        rw [hprogress hstarts] at hrefused
        cases hrefused
    | false =>
        rw [(hafter.idle hstarts).1] at hrefused
        cases hrefused
  change Pump.cause _ _ = some cause at hended
  unfold Pump.cause at hended
  split at hended
  · rename_i refusal hrefused
    exact absurd hrefused (hunrefused refusal)
  · split at hended
    · cases hended
      rfl
    · cases hended

/-- A turn keeps the reports and the delays in agreement. -/
theorem scheduled_pump (hbackoff : provider.reader.backoff = backoff)
    (hstart : provider.reader.start = start) {connection : Connection D} {attempts : Nat}
    (hattempt : provider.attempt = attempts + 1)
    (hschedule : run (Schedule.next backoff) .new provider.sent =
      ⟨connection.pump.announced, provider.failures, attempts, provider.delays⟩)
    (hallowed : Allowed (Schedule.next backoff) Schedule.Lawful .new provider.sent)
    (hsound : connection.pump.Sound start.isSome)
    (hstarted : start.isSome = true → connection.pump.announced = true →
      connection.pump.progress = .started) (read : PortRead) (elapsed : Nat)
    (consumer : Consumer) :
    Scheduled backoff start (provider.pump connection read elapsed consumer) := by
  have hannounced := turn_announced hstart hsound hstarted read elapsed
  have hup : (run (Schedule.next backoff) .new provider.sent).up =
      ((connection.heard read).checked provider.reader.start.isSome read).pump.announced := by
    rw [hschedule]
    exact (announced_heard connection provider.reader.start.isSome read).symm
  obtain ⟨hrun, hreport⟩ := schedule_report backoff provider.reader _ read elapsed hup
  have hevents : run (Schedule.next backoff) .new
      (provider.sent ++ (provider.reader.turn connection read elapsed).events) =
        ⟨(provider.reader.turn connection read elapsed).connection.pump.announced,
          provider.failures, attempts, provider.delays⟩ := by
    rw [run_append]
    refine hrun.trans ?_
    rw [hschedule]
    rfl
  have hall : Allowed (Schedule.next backoff) Schedule.Lawful .new
      (provider.sent ++ (provider.reader.turn connection read elapsed).events) :=
    (allowed_append _ _ _).mpr ⟨hallowed, hreport⟩
  have hdelays : provider.delays <+: (run (Schedule.next backoff) .new provider.sent).delays := by
    rw [hschedule]
  unfold Provider.pump
  simp only
  cases hended : (provider.reader.turn connection read elapsed).ended with
  | some cause =>
      exact scheduled_conclude (by exact hbackoff) (by exact hstart) (by exact hattempt)
        (by exact hdelays) (by exact hevents) (by exact hall)
        (fun hup => (hannounced hup).2 cause hended) consumer
  | none =>
      by_cases htakes :
          consumer.takesAll (provider.reader.turn connection read elapsed).events = true
      · refine .reading hbackoff hstart (if_pos htakes) hattempt ?_ ?_ ?_ ?_
        · rw [taken_of_takes_all htakes]
          exact hevents
        · rw [taken_of_takes_all htakes]
          exact hall
        · subst hstart
          obtain ⟨hafter, -⟩ := sound_heard hsound read
          exact ⟨hafter.left, hafter.started, hafter.idle⟩
        · intro hstarts hup
          exact (hannounced hup).1 hstarts
      · obtain ⟨htaken, hfront⟩ := scheduled_taken hdelays hall consumer
        exact .stopped (if_neg htakes) htaken hfront

/-- Every step does. -/
theorem Scheduled.step (h : Scheduled backoff start provider) (event : ProviderEvent) :
    Scheduled backoff start (provider.step event) := by
  have hsame := h
  cases h with
  | waiting hbackoff hstart hstanding hschedule hallowed =>
      have hdelays : provider.delays <+:
          (run (Schedule.next backoff) .new provider.sent).delays := by
        rw [hschedule]
      have hconclude : ∀ {waited : Provider D}, waited.reader.backoff = backoff →
          waited.reader.start = start → waited.attempt = provider.attempt + 1 →
          waited.sent = provider.sent → waited.failures = provider.failures →
          waited.delays = provider.delays →
          ∀ cause consumer, Scheduled backoff start (waited.conclude false [] cause consumer) := by
        intro waited hbackoff hstart hattempt hsent hfailures hslept cause consumer
        refine scheduled_conclude hbackoff hstart hattempt ?_ ?_ ?_ (fun h => by cases h) consumer
        · rw [hsent, hslept]
          exact hdelays
        · rw [hsent, hslept, hfailures, List.append_nil]
          exact hschedule
        · rw [hsent, List.append_nil]
          exact hallowed
      unfold Provider.step
      rw [hstanding]
      cases event with
      | notOpened reason consumer =>
          exact hconclude (by exact hbackoff) (by exact hstart) (by rfl) (by rfl) (by rfl) (by rfl)
            _ _
      | opened machine consumer =>
          show Scheduled backoff start (provider.opened machine consumer)
          unfold Provider.opened
          simp only
          split
          · exact hconclude (by exact hbackoff) (by exact hstart) (by rfl) (by rfl) (by rfl)
              (by rfl) _ _
          · have hnew : (Connection.begin provider.reader.start machine
                provider.reader.decoder).pump.announced = false := by
              rw [hstart]
              unfold Connection.begin
              cases start with
              | none => rfl
              | some sequence =>
                  show (Pump.begin _ _).announced = false
                  unfold Pump.begin
                  simp only
                  split <;> rfl
            refine .reading hbackoff hstart rfl rfl ?_ hallowed ?_ ?_
            · rw [hnew]
              exact hschedule
            · rw [← hstart]
              exact sound_begin _ _ _
            · intro hstarts hup
              rw [hnew] at hup
              cases hup
      | read => exact hsame
  | reading hbackoff hstart hstanding hattempt hschedule hallowed hsound hstarted =>
      unfold Provider.step
      rw [hstanding]
      cases event with
      | read read elapsed consumer =>
          simp only
          split
          · exact hsame
          · exact scheduled_pump hbackoff hstart hattempt hschedule hallowed hsound hstarted read
              elapsed consumer
      | notOpened => exact hsame
      | opened => exact hsame
  | stopped hstanding =>
      unfold Provider.step
      rw [hstanding]
      exact hsame

/-- The events a provider sends announce a connection only while none is up, and one that was
announced ends because the port did. They tell every delay the provider slept: the failures in a
row and the attempts so far decide it, and it is within the bounds of the backoff. -/
theorem delays_follow_reports (decoder : D) (backoff : Backoff) (start : Option (List Step))
    (events : List ProviderEvent) :
    let provider := run Provider.step (.new (.new decoder backoff start)) events
    let schedule := run (Schedule.next backoff) .new provider.sent
    Allowed (Schedule.next backoff) Schedule.Lawful .new provider.sent ∧
      provider.delays <+: schedule.delays ∧
      (provider.standing ≠ .stopped → provider.delays = schedule.delays ∧
        provider.failures = schedule.failures) ∧
      ∀ delay ∈ provider.delays, backoff.capped 0 / 2 ≤ delay ∧ delay ≤ backoff.max := by
  intro provider schedule
  have hnew : Scheduled backoff start (Provider.new (.new decoder backoff start)) :=
    .waiting rfl rfl rfl rfl trivial
  have hrun : Scheduled backoff start provider :=
    @run_keeps _ _ Provider.step (Scheduled backoff start) (fun _ event h => h.step event) _ hnew
      events
  have hbounds : provider.delays <+: schedule.delays →
      ∀ delay ∈ provider.delays, backoff.capped 0 / 2 ≤ delay ∧ delay ≤ backoff.max :=
    fun hfront delay hdelay => schedule_delays backoff _ delay (hfront.subset hdelay)
  cases hrun with
  | waiting _ _ _ hschedule hallowed =>
      have hdelays : provider.delays = schedule.delays := congrArg Schedule.delays hschedule.symm
      have hfront : provider.delays <+: schedule.delays := by rw [← hdelays]
      exact ⟨hallowed, hfront, fun _ => ⟨hdelays, congrArg Schedule.failures hschedule.symm⟩,
        hbounds hfront⟩
  | reading _ _ _ _ hschedule hallowed _ _ =>
      have hdelays : provider.delays = schedule.delays := congrArg Schedule.delays hschedule.symm
      have hfront : provider.delays <+: schedule.delays := by rw [← hdelays]
      exact ⟨hallowed, hfront, fun _ => ⟨hdelays, congrArg Schedule.failures hschedule.symm⟩,
        hbounds hfront⟩
  | stopped hstanding hallowed hfront =>
      exact ⟨hallowed, hfront, fun hup => absurd hstanding hup, hbounds hfront⟩

end Splitforge.Thingmagic
