import Splitforge.Thingmagic.Chunks
import Splitforge.Thingmagic.Pump

/-!
# The order of a start

A connection is announced when every command was written in order and answered, where it has to be,
before the next; and a refused command is the last one written. The sequence keeps its place when
it is refused or a write fails, so this holds as long as no later frame of that turn moves it on.
-/

namespace Splitforge.Thingmagic

open Splitforge.Domain Splitforge.Library

/-! ## What a connection ought to keep -/

/-- A response has the opcode of a command, and the option of one that carries options. -/
def Answers (command : Command) (response : Response) : Prop :=
  response.opcode = command.opcode.toByte ∧
    (command.opcode = .multiProtocolTagOp → response.data.head? = command.body[2]?)

/-- No command is written. -/
def Quiet (events : List PortEvent) : Prop := ∀ place, .wrote place ∉ events

/-- The commands up to a place were written in order, and each that has to succeed was answered
with success before the next. -/
inductive Through (steps : List Step) : Nat → List PortEvent → Prop where
  | nothing {heard : List PortEvent} (hquiet : Quiet heard) : Through steps 0 heard
  | step {place : Nat} {log heard : List PortEvent} {step : Step} (hlog : Through steps place log)
      (hstep : steps[place]? = some step) (hquiet : Quiet heard)
      (hanswered : step.mustSucceed = true → ∃ response, .heard response ∈ heard ∧
        Answers step.command response ∧ response.isOk = true) :
      Through steps (place + 1) (log ++ .wrote place :: heard)

/-- A reply refuses the command that was written last, which has to succeed and has not been
accepted. -/
def Refuses (steps : List Step) (before : List PortEvent) (response : Response) : Prop :=
  ∃ earlier place step since, before = earlier ++ .wrote place :: since ∧ Quiet since ∧
    steps[place]? = some step ∧ step.mustSucceed = true ∧ Answers step.command response ∧
    response.isOk = false ∧
    ∀ other, .heard other ∈ since → Answers step.command other → other.isOk = false

/-- A connection is announced only behind the whole sequence; and behind a refusal no command is
written, the connection is not announced, and it ends not started. -/
structure StopsAtRefusal (steps : List Step) (log : List PortEvent) : Prop where
  connected : ∀ before after, log = before ++ .connected :: after →
    Through steps steps.length before
  refused : ∀ before response after, log = before ++ .heard response :: after →
    Refuses steps before response →
      Quiet after ∧ .connected ∉ after ∧ .ended false .notStarted ∈ after

/-! ## When a refusal is heeded -/

/-- The awaited command has been refused, or a write of the turn has failed. -/
def Pump.Failed (pump : Pump) : Prop :=
  (∃ refusal, pump.progress = .refused refusal) ∨ pump.written = false

/-- A frame does not move on a sequence that has failed: one that it claims refuses the awaited
command. -/
def Pump.Heeded (pump : Pump) (response : Response) : Prop :=
  pump.Failed → pump.starting.claims response = true →
    ∃ step, pump.starting.awaited = some step ∧ step.mustSucceed = true ∧ response.isOk = false

/-- No frame of a turn moves on a sequence that has failed in it. -/
def Pump.Heeds (surroundings : Surroundings) (pump : Pump) (read : PortRead) : Prop :=
  pump.finished = false → Allowed (Pump.hear surroundings) Pump.Heeded (pump.opened read)
    (read.frames pump.reassembler).2

/-! ## Lemmas about logs -/

variable {steps : List Step} {log : List PortEvent} {place : Nat}

theorem quiet_append (first second : List PortEvent) :
    Quiet (first ++ second) ↔ Quiet first ∧ Quiet second := by
  simp only [Quiet, List.mem_append, not_or, forall_and]

theorem quiet_heard (response : Response) : Quiet [.heard response] := by
  intro place hmem
  cases List.mem_singleton.mp hmem

/-- The last command of a log is at one place. -/
theorem last_wrote_unique {earlier earlier' since since' : List PortEvent} {place place' : Nat}
    (hquiet : Quiet since) (hquiet' : Quiet since')
    (h : earlier ++ .wrote place :: since = earlier' ++ .wrote place' :: since') :
    place = place' ∧ since = since' := by
  rcases List.append_eq_append_iff.mp h with ⟨more, _, hmore⟩ | ⟨more, _, hmore⟩
  · rcases more with - | ⟨event, more⟩
    · cases hmore
      exact ⟨rfl, rfl⟩
    · -- the second command stands behind the first
      cases hmore
      exact absurd (by simp) (hquiet place')
  · rcases more with - | ⟨event, more⟩
    · cases hmore
      exact ⟨rfl, rfl⟩
    · cases hmore
      exact absurd (by simp) (hquiet' place)

theorem Through.le_length (h : Through steps place log) : place ≤ steps.length := by
  cases h with
  | nothing => exact Nat.zero_le _
  | step _ hstep => exact (List.getElem?_eq_some_iff.mp hstep).1

/-- What is not a command changes nothing. -/
theorem Through.append (h : Through steps place log) {more : List PortEvent}
    (hmore : Quiet more) : Through steps place (log ++ more) := by
  cases h with
  | nothing hquiet => exact .nothing ((quiet_append _ _).mpr ⟨hquiet, hmore⟩)
  | step hlog hstep hquiet hanswered =>
      rw [List.append_assoc, List.cons_append]
      refine .step hlog hstep ((quiet_append _ _).mpr ⟨hquiet, hmore⟩) ?_
      intro hmust
      obtain ⟨response, hmem, hanswers⟩ := hanswered hmust
      exact ⟨response, List.mem_append_left _ hmem, hanswers⟩

/-- Behind commands that were answered nothing is refused. -/
theorem Through.not_refuses (h : Through steps place log) (response : Response) :
    ¬ Refuses steps log response := by
  rintro ⟨earlier, other, step, since, hsplit, hsince, hstep, hmust, _, _, hnone⟩
  cases h with
  | nothing hquiet => exact hquiet other (by rw [hsplit]; simp)
  | step hlog hstep' hquiet hanswered =>
      obtain ⟨rfl, rfl⟩ := last_wrote_unique hquiet hsince hsplit
      rw [hstep] at hstep'
      cases hstep'
      obtain ⟨accepted, hmem, hanswers, hok⟩ := hanswered hmust
      rw [hnone accepted hmem hanswers] at hok
      cases hok

/-- Nothing in a log refuses a command. -/
def Unrefused (steps : List Step) (log : List PortEvent) : Prop :=
  ∀ before response after, log = before ++ .heard response :: after →
    ¬ Refuses steps before response

/-- Where an event of a longer log stands. -/
theorem split_append {log more before after : List PortEvent} {event : PortEvent}
    (h : log ++ more = before ++ event :: after) :
    (∃ rest, log = before ++ event :: rest ∧ after = rest ++ more) ∨
      ∃ rest, before = log ++ rest ∧ more = rest ++ event :: after := by
  rcases List.append_eq_append_iff.mp h with ⟨rest, hbefore, hmore⟩ | ⟨rest, hlog, hrest⟩
  · exact .inr ⟨rest, hbefore, hmore⟩
  · rcases rest with - | ⟨head, rest⟩
    · exact .inr ⟨[], by simpa using hlog.symm, by simpa using hrest.symm⟩
    · obtain ⟨rfl, rfl⟩ := List.cons.inj hrest
      exact .inl ⟨rest, hlog, rfl⟩

/-- One more frame refuses nothing when it does not refuse the last command. -/
theorem Unrefused.frame (h : Unrefused steps log) {response : Response}
    (hlast : ¬ Refuses steps log response) : Unrefused steps (log ++ [.heard response]) := by
  intro before other after hsplit
  rcases split_append hsplit with ⟨rest, hlog, _⟩ | ⟨rest, rfl, hrest⟩
  · exact h before other rest hlog
  · rcases rest with - | ⟨event, rest⟩
    · cases hrest
      rwa [List.append_nil]
    · -- nothing stands behind the frame
      cases rest <;> cases hrest

/-- What is not a frame refuses nothing. -/
theorem Unrefused.append (h : Unrefused steps log) {more : List PortEvent}
    (hmore : ∀ response, .heard response ∉ more) : Unrefused steps (log ++ more) := by
  intro before response after hsplit
  rcases split_append hsplit with ⟨rest, hlog, _⟩ | ⟨rest, _, hrest⟩
  · exact h before response rest hlog
  · exact absurd (by simp [hrest]) (hmore response)

/-- Behind every refusal no command is written. -/
def Halted (steps : List Step) (log : List PortEvent) : Prop :=
  ∀ before response after, log = before ++ .heard response :: after →
    Refuses steps before response → Quiet after

theorem Unrefused.halted (h : Unrefused steps log) : Halted steps log := by
  intro before response after hsplit hrefuses
  exact absurd hrefuses (h before response after hsplit)

/-- What is not a command leaves a halted log halted. -/
theorem Halted.append (h : Halted steps log) {more : List PortEvent} (hmore : Quiet more) :
    Halted steps (log ++ more) := by
  intro before response after hsplit hrefuses
  rcases split_append hsplit with ⟨rest, hlog, rfl⟩ | ⟨rest, _, rfl⟩
  · exact (quiet_append _ _).mpr ⟨h before response rest hlog hrefuses, hmore⟩
  · exact fun place hmem => hmore place (by simp [hmem])

/-- A frame is claimed when it answers the command that is awaited. -/
theorem claims_iff (starting : Starting) (response : Response) :
    starting.claims response = true ↔
      ∃ step, starting.awaited = some step ∧ Answers step.command response := by
  unfold Starting.claims
  cases starting.awaited with
  | none => simp
  | some step =>
      simp only [Option.some.injEq, exists_eq_left', Answers]
      by_cases hopcode : response.opcode = step.command.opcode.toByte
      · by_cases htag : step.command.opcode = .multiProtocolTagOp
        · simp [hopcode, htag]
        · simp [hopcode, htag]
      · simp [hopcode]

/-! ## The states of a connection -/

/-- How far a connection that is not over has come. -/
inductive Phase (steps : List Step) (pump : Pump) : Prop where
  | awaiting {step : Step} {done heard : List PortEvent} (hprogress : pump.progress = .waiting)
      (hdeadline : pump.starting.deadline.isSome = true)
      (hstep : steps[pump.starting.next]? = some step)
      (hlog : pump.port.log = done ++ .wrote pump.starting.next :: heard)
      (hdone : Through steps pump.starting.next done) (hquiet : Quiet heard)
      (hopen : step.mustSucceed = true → ∀ response, .heard response ∈ heard →
        ¬ Answers step.command response)
      (hannounced : pump.announced = false) (hconnected : .connected ∉ pump.port.log)
      (hunrefused : Unrefused steps pump.port.log)
  | started (hprogress : pump.progress = .started) (hdeadline : pump.starting.deadline = none)
      (hthrough : Through steps steps.length pump.port.log)
      (hconnected : ∀ before after, pump.port.log = before ++ .connected :: after →
        Through steps steps.length before)
      (hunrefused : Unrefused steps pump.port.log)
  | unwritten (hprogress : pump.progress = .waiting) (hwritten : pump.written = false)
      (hthrough : Through steps pump.starting.next pump.port.log)
      (hannounced : pump.announced = false) (hconnected : .connected ∉ pump.port.log)
      (hunrefused : Unrefused steps pump.port.log)
  | refused {refusal : Refusal} (hprogress : pump.progress = .refused refusal)
      (hannounced : pump.announced = false) (hconnected : .connected ∉ pump.port.log)
      (hhalted : Halted steps pump.port.log)

/-- What of a connection the sequence and the turns decide by. -/
theorem Phase.congr {pump pump' : Pump} (h : Phase steps pump)
    (hnext : pump'.starting.next = pump.starting.next)
    (hdeadline : pump'.starting.deadline = pump.starting.deadline)
    (hprogress : pump'.progress = pump.progress) (hwritten : pump'.written = pump.written)
    (hannounced : pump'.announced = pump.announced) (hlog : pump'.port.log = pump.port.log) :
    Phase steps pump' := by
  cases h with
  | awaiting hp hd hs hl hdone hq ho ha hc hu =>
      rw [← hnext] at hs hl hdone
      rw [← hlog] at hl hc hu
      exact .awaiting (hprogress.trans hp) (by rw [hdeadline, hd]) hs hl hdone hq ho
        (hannounced.trans ha) hc hu
  | started hp hd ht hc hu =>
      rw [← hlog] at ht hc hu
      exact .started (hprogress.trans hp) (hdeadline.trans hd) ht hc hu
  | unwritten hp hw ht ha hc hu =>
      rw [← hlog] at ht hc hu
      rw [← hnext] at ht
      exact .unwritten (hprogress.trans hp) (hwritten.trans hw) ht (hannounced.trans ha) hc hu
  | refused hp ha hc hh =>
      rw [← hlog] at hc hh
      exact .refused (hprogress.trans hp) (hannounced.trans ha) hc hh

/-- The next command is sent behind commands that were answered. -/
theorem phase_send {accepts : Nat → Bool} {pump : Pump} {starting : Starting} {port : PortLog}
    (now : Nat) (hsteps : starting.steps = steps) (hprogress : pump.progress = .waiting)
    (hthrough : Through steps starting.next port.log) (hannounced : pump.announced = false)
    (hconnected : .connected ∉ port.log) (hunrefused : Unrefused steps port.log) :
    Phase steps (pump.settle (starting.send accepts port now)) := by
  unfold Starting.send
  by_cases hleft : starting.next < starting.steps.length
  · rw [if_pos hleft]
    by_cases haccepts : accepts port.attempts = true
    · rw [if_pos haccepts]
      have hstep : steps[starting.next]? = some (starting.steps.get ⟨_, hleft⟩) := by
        rw [← hsteps]
        exact List.getElem?_eq_getElem hleft
      refine .awaiting rfl rfl hstep rfl hthrough ?_ ?_ hannounced ?_ ?_
      · intro place hmem
        cases hmem
      · intro _ response hmem
        cases hmem
      · show PortEvent.connected ∉ port.log ++ [.wrote starting.next]
        simpa using hconnected
      · exact hunrefused.append (fun response hmem => by cases List.mem_singleton.mp hmem)
    · rw [if_neg haccepts]
      exact .unwritten hprogress (Bool.and_false _) hthrough hannounced hconnected hunrefused
  · rw [if_neg hleft]
    have hall : starting.next = steps.length := by
      have hle := hthrough.le_length
      rw [hsteps] at hleft
      omega
    rw [hall] at hthrough
    refine .started rfl rfl hthrough ?_ hunrefused
    intro before after hsplit
    exact absurd (by rw [show port.log = _ from hsplit]; simp) hconnected

/-- Sending writes nothing, waits, or finds nothing left to send. -/
theorem send_cases (accepts : Nat → Bool) (starting : Starting) (port : PortLog) (now : Nat) :
    ((starting.send accepts port now).1 = none ∧
        (starting.send accepts port now).2.2.log = port.log) ∨
      (starting.send accepts port now).1 = some .waiting ∨
      (starting.send accepts port now).1 = some .started := by
  unfold Starting.send
  split
  · dsimp only
    split
    · exact .inr (.inl rfl)
    · exact .inl ⟨rfl, rfl⟩
  · exact .inr (.inr rfl)

/-- The steps of a sequence stay the same. -/
theorem send_steps (accepts : Nat → Bool) (starting : Starting) (port : PortLog) (now : Nat) :
    (starting.send accepts port now).2.1.steps = starting.steps := by
  unfold Starting.send
  split
  · dsimp only
    split <;> rfl
  · rfl

theorem answer_steps (accepts : Nat → Bool) (starting : Starting) (response : Response)
    (port : PortLog) (now : Nat) :
    (starting.answer accepts response port now).2.1.steps = starting.steps := by
  unfold Starting.answer
  split
  · rfl
  · split
    · rfl
    · exact send_steps accepts _ port now

theorem hear_steps (surroundings : Surroundings) (pump : Pump) (response : Response) :
    (pump.hear surroundings response).starting.steps = pump.starting.steps := by
  unfold Pump.hear
  dsimp only
  split
  · exact answer_steps surroundings.accepts pump.starting response _ _
  · rfl

theorem tick_steps (accepts : Nat → Bool) (starting : Starting) (port : PortLog) (now : Nat) :
    (starting.tick accepts port now).2.1.steps = starting.steps := by
  unfold Starting.tick
  split
  · split
    · rfl
    · split
      · rfl
      · exact send_steps accepts _ port now
  · rfl

/-! ## What a frame does -/

/-- A connection that has heard one more frame. -/
def Pump.heard (pump : Pump) (response : Response) : Pump :=
  { pump with port := { pump.port with log := pump.port.log ++ [.heard response] } }

theorem hear_ignored (surroundings : Surroundings) {pump : Pump} {response : Response}
    (hclaims : ¬ pump.starting.claims response = true) :
    pump.hear surroundings response = pump.heard response := by
  unfold Pump.hear
  dsimp only
  rw [if_neg hclaims]
  rfl

/-- A claimed frame is answered, and taking the power report changes nothing else. -/
theorem hear_claimed (surroundings : Surroundings) {pump : Pump} {response : Response}
    (hclaims : pump.starting.claims response = true)
    (h : Phase steps ((pump.heard response).settle (pump.starting.answer surroundings.accepts
      response (pump.heard response).port (surroundings.clock pump.looks)))) :
    Phase steps (pump.hear surroundings response) := by
  unfold Pump.hear
  dsimp only
  rw [if_pos hclaims]
  exact h.congr rfl rfl rfl rfl rfl rfl

/-- An answer that refuses a command that has to succeed changes nothing in the sequence. -/
theorem answer_refused {accepts : Nat → Bool} {starting : Starting} {step : Step}
    {response : Response} (port : PortLog) (now : Nat) (hawaited : starting.awaited = some step)
    (hmust : step.mustSucceed = true) (hok : response.isOk = false) :
    starting.answer accepts response port now =
      (some (.refused (.status step.command.opcode response.status)), starting, port) := by
  unfold Starting.answer
  rw [hawaited]
  dsimp only
  rw [if_pos ⟨hmust, by simp [hok]⟩]

/-- A frame leaves a connection unannounced. -/
theorem unannounced_heard (hconnected : PortEvent.connected ∉ log) (response : Response) :
    PortEvent.connected ∉ log ++ [.heard response] := by
  simpa using hconnected

/-- A refusal that is claimed refuses the sequence. -/
theorem phase_refused (surroundings : Surroundings) {pump : Pump} {step : Step}
    {response : Response} (hclaims : pump.starting.claims response = true)
    (hawaited : pump.starting.awaited = some step) (hmust : step.mustSucceed = true)
    (hok : response.isOk = false) (hannounced : pump.announced = false)
    (hconnected : .connected ∉ pump.port.log) (hhalted : Halted steps pump.port.log) :
    Phase steps (pump.hear surroundings response) := by
  refine hear_claimed surroundings hclaims ?_
  rw [answer_refused _ _ hawaited hmust hok]
  exact .refused rfl hannounced (unannounced_heard hconnected response)
    (hhalted.append (quiet_heard response))

/-- A frame behind the answered commands of a log refuses nothing. -/
theorem unrefused_through (hunrefused : Unrefused steps log) (hthrough : Through steps place log)
    (response : Response) : Unrefused steps (log ++ [.heard response]) :=
  hunrefused.frame (hthrough.not_refuses response)

/-- A frame that is claimed answers the command that is awaited or refuses the sequence. -/
theorem phase_claimed (surroundings : Surroundings) {pump : Pump} {response : Response}
    (hsteps : pump.starting.steps = steps) (h : Phase steps pump)
    (hheeded : pump.Heeded response) (hclaims : pump.starting.claims response = true) :
    Phase steps (pump.hear surroundings response) := by
  obtain ⟨step, hawaited, hanswers⟩ := (claims_iff _ _).mp hclaims
  cases h with
  | @awaiting step' done heard hp hd hs hl hdone hq ho ha hc hu =>
      have hstep : pump.starting.awaited = some step' := by
        unfold Starting.awaited
        rw [if_pos hd, hsteps, hs]
      cases hstep.symm.trans hawaited
      by_cases hrefuses : step.mustSucceed = true ∧ response.isOk = false
      · obtain ⟨hmust, hok⟩ := hrefuses
        exact phase_refused surroundings hclaims hawaited hmust hok ha hc hu.halted
      · -- the command is answered, and the next one is sent
        have hnot : ¬ (step.mustSucceed = true ∧ ¬ response.isOk = true) := by
          intro ⟨hmust, hok⟩
          exact hrefuses ⟨hmust, by simpa using hok⟩
        have hthrough : Through steps (pump.starting.next + 1)
            (pump.port.log ++ [.heard response]) := by
          rw [hl, List.append_assoc, List.cons_append]
          refine .step hdone hs ((quiet_append _ _).mpr ⟨hq, quiet_heard response⟩) ?_
          intro hmust
          have hok : response.isOk = true := by
            by_contra hok
            exact hnot ⟨hmust, hok⟩
          exact ⟨response, by simp, hanswers, hok⟩
        refine hear_claimed surroundings hclaims ?_
        unfold Starting.answer
        rw [hawaited]
        dsimp only
        rw [if_neg hnot]
        refine phase_send _ hsteps hp hthrough ha (unannounced_heard hc response) (hu.frame ?_)
        intro hlast
        obtain ⟨earlier, other, step', since, hsplit, hsince, hstep', hmust, _, hok, _⟩ := hlast
        rw [hl] at hsplit
        obtain ⟨rfl, rfl⟩ := last_wrote_unique hq hsince hsplit
        cases hs.symm.trans hstep'
        exact hrefuses ⟨hmust, hok⟩
  | started _ hd =>
      -- nothing is awaited any more
      rw [Starting.awaited, hd] at hawaited
      cases hawaited
  | unwritten hp hw ht ha hc hu =>
      obtain ⟨step', hawaited', hmust, hok⟩ := hheeded (.inr hw) hclaims
      exact phase_refused surroundings hclaims hawaited' hmust hok ha hc hu.halted
  | refused hp ha hc hh =>
      obtain ⟨step', hawaited', hmust, hok⟩ := hheeded (.inl ⟨_, hp⟩) hclaims
      exact phase_refused surroundings hclaims hawaited' hmust hok ha hc hh

/-- A frame that is not claimed leaves a connection in its phase. -/
theorem phase_ignored (surroundings : Surroundings) {pump : Pump} {response : Response}
    (hsteps : pump.starting.steps = steps) (h : Phase steps pump)
    (hclaims : ¬ pump.starting.claims response = true) :
    Phase steps (pump.hear surroundings response) := by
  rw [hear_ignored surroundings hclaims]
  cases h with
  | @awaiting step done heard hp hd hs hl hdone hq ho ha hc hu =>
      have hnot : ¬ Answers step.command response := by
        intro hanswers
        refine hclaims ((claims_iff _ _).mpr ⟨step, ?_, hanswers⟩)
        unfold Starting.awaited
        rw [if_pos hd, hsteps, hs]
      have hlog : (pump.heard response).port.log =
          done ++ .wrote pump.starting.next :: (heard ++ [.heard response]) := by
        show pump.port.log ++ [.heard response] = _
        rw [hl, List.append_assoc, List.cons_append]
      refine .awaiting hp hd hs hlog hdone ((quiet_append _ _).mpr ⟨hq, quiet_heard response⟩)
        ?_ ha (unannounced_heard hc response) (hu.frame ?_)
      · intro hmust other hmem
        rcases List.mem_append.mp hmem with hmem | hmem
        · exact ho hmust other hmem
        · cases List.mem_singleton.mp hmem
          exact hnot
      · intro hlast
        obtain ⟨earlier, other, step', since, hsplit, hsince, hstep', _, hanswers, _⟩ := hlast
        rw [hl] at hsplit
        obtain ⟨rfl, rfl⟩ := last_wrote_unique hq hsince hsplit
        cases hs.symm.trans hstep'
        exact hnot hanswers
  | started hp hd ht hc hu =>
      refine .started hp hd (ht.append (quiet_heard response)) ?_
        (unrefused_through hu ht response)
      intro before after hsplit
      rcases split_append hsplit with ⟨rest, hlog, _⟩ | ⟨rest, rfl, hrest⟩
      · exact hc before rest hlog
      · exact absurd (by rw [hrest]; simp)
          (show PortEvent.connected ∉ [.heard response] by simp)
  | unwritten hp hw ht ha hc hu =>
      exact .unwritten hp hw (ht.append (quiet_heard response)) ha (unannounced_heard hc response)
        (unrefused_through hu ht response)
  | refused hp ha hc hh =>
      exact .refused hp ha (unannounced_heard hc response) (hh.append (quiet_heard response))

/-- Every frame of a turn keeps a connection in one of its phases, as long as it does not move on
a sequence that has failed. -/
theorem phase_hear (surroundings : Surroundings) {pump : Pump} {response : Response}
    (hsteps : pump.starting.steps = steps) (h : Phase steps pump)
    (hheeded : pump.Heeded response) : Phase steps (pump.hear surroundings response) := by
  by_cases hclaims : pump.starting.claims response = true
  · exact phase_claimed surroundings hsteps h hheeded hclaims
  · exact phase_ignored surroundings hsteps h hclaims

/-! ## What a turn does -/

/-- Checking the deadline keeps a connection in one of its phases. -/
theorem phase_checkDeadline (surroundings : Surroundings) {pump : Pump}
    (hsteps : pump.starting.steps = steps) (h : Phase steps pump) (ended : Bool) :
    Phase steps (pump.checkDeadline surroundings ended) := by
  unfold Pump.checkDeadline
  by_cases hdue : ended = false ∧ pump.written = true ∧ pump.progress = .waiting
  · rw [if_pos hdue]
    obtain ⟨_, hwritten, hwaiting⟩ := hdue
    cases h with
    | @awaiting step done heard hp hd hs hl hdone hq ho ha hc hu =>
        obtain ⟨deadline, hdeadline⟩ := Option.isSome_iff_exists.mp hd
        have hawaited : pump.starting.awaited = some step := by
          unfold Starting.awaited
          rw [if_pos hd, hsteps, hs]
        unfold Starting.tick
        rw [hawaited, hdeadline]
        dsimp only
        by_cases hearly : surroundings.clock pump.looks < deadline
        · rw [if_pos hearly]
          exact .awaiting rfl hd hs hl hdone hq ho ha hc hu
        · rw [if_neg hearly]
          by_cases hmust : step.mustSucceed = true
          · rw [if_pos hmust]
            exact .refused rfl ha hc hu.halted
          · -- a command whose answer is not needed is passed over
            rw [if_neg hmust]
            refine phase_send _ hsteps hp ?_ ha hc hu
            rw [hl]
            exact .step hdone hs hq (fun h => absurd h hmust)
    | started hp => rw [hp] at hwaiting; cases hwaiting
    | unwritten _ hw => rw [hw] at hwritten; cases hwritten
    | refused hp => rw [hp] at hwaiting; cases hwaiting
  · rw [if_neg hdue]
    exact h

/-- A connection between two turns, or one that is over. -/
inductive Kept (steps : List Step) (pump : Pump) : Prop where
  | finished (hfinished : pump.finished = true) (hlog : StopsAtRefusal steps pump.port.log)
  | reading (hfinished : pump.finished = false) (hsteps : pump.starting.steps = steps)
      (hphase : Phase steps pump) (hwritten : pump.written = true)
      (hrefused : ∀ refusal, pump.progress ≠ .refused refusal)

/-- What the end of a turn adds to the log: no command and no frame, that the connection has been
announced at most when the sequence has started, and how it ended if it did. -/
theorem report_log (pump : Pump) (ended : Bool) :
    ∃ events, (pump.report ended).port.log = pump.port.log ++ events ∧ Quiet events ∧
      (∀ response, .heard response ∉ events) ∧
      (.connected ∈ events → pump.progress = .started) ∧
      ∀ cause, pump.cause ended = some cause →
        .ended (pump.announced || decide (pump.progress = .started)) cause ∈ events := by
  refine ⟨_, rfl, ?_, ?_, ?_, ?_⟩
  · intro place hmem
    simp only [List.mem_append, Option.mem_toList, Option.map_eq_some_iff] at hmem
    rcases hmem with (hmem | ⟨_, _, h⟩) | ⟨_, _, h⟩
    · split at hmem <;> simp at hmem
    · cases h
    · cases h
  · intro response hmem
    simp only [List.mem_append, Option.mem_toList, Option.map_eq_some_iff] at hmem
    rcases hmem with (hmem | ⟨_, _, h⟩) | ⟨_, _, h⟩
    · split at hmem <;> simp at hmem
    · cases h
    · cases h
  · intro hmem
    simp only [List.mem_append, Option.mem_toList, Option.map_eq_some_iff] at hmem
    rcases hmem with (hmem | ⟨_, _, h⟩) | ⟨_, _, h⟩
    · split at hmem
      · next h => exact h.2
      · cases hmem
    · cases h
    · cases h
  · intro cause hcause
    simp [hcause]

/-- A connection is announced only behind the whole sequence. -/
theorem Phase.connected {pump : Pump} (h : Phase steps pump) {events : List PortEvent}
    (hquiet : Quiet events) (hevents : .connected ∈ events → pump.progress = .started)
    {before after : List PortEvent}
    (hsplit : pump.port.log ++ events = before ++ .connected :: after) :
    Through steps steps.length before := by
  have hmem : PortEvent.connected ∈ pump.port.log ∨ pump.progress = .started := by
    rcases split_append hsplit with ⟨rest, hlog, _⟩ | ⟨rest, _, hrest⟩
    · exact .inl (by rw [hlog]; simp)
    · exact .inr (hevents (by rw [hrest]; simp))
  cases h with
  | awaiting hp _ _ _ _ _ _ _ hc => simp [hp, hc] at hmem
  | started _ _ ht hc =>
      rcases split_append hsplit with ⟨rest, hlog, _⟩ | ⟨rest, rfl, hrest⟩
      · exact hc before rest hlog
      · rw [hrest] at hquiet
        exact ht.append ((quiet_append _ _).mp hquiet).1
  | unwritten hp _ _ _ hc => simp [hp, hc] at hmem
  | refused hp _ hc => simp [hp, hc] at hmem

/-- What is reported has the connection announced only behind the whole sequence. -/
theorem Phase.announced_report {pump : Pump} (h : Phase steps pump) (ended : Bool)
    {before after : List PortEvent}
    (hsplit : (pump.report ended).port.log = before ++ .connected :: after) :
    Through steps steps.length before := by
  obtain ⟨events, hlog, hquiet, _, hconnected, _⟩ := report_log pump ended
  rw [hlog] at hsplit
  exact h.connected hquiet hconnected hsplit

/-- A connection that goes on is reported as it is. -/
theorem Phase.reading_report {pump : Pump} (h : Phase steps pump)
    (hsteps : pump.starting.steps = steps) {ended : Bool} (hcause : pump.cause ended = none) :
    Kept steps (pump.report ended) := by
  obtain ⟨events, hlog, hquiet, hheard, hconnected, _⟩ := report_log pump ended
  have hrefused : ∀ refusal, pump.progress ≠ .refused refusal := by
    intro refusal hp
    simp [Pump.cause, hp] at hcause
  have hwritten : pump.written = true := by
    unfold Pump.cause at hcause
    split at hcause
    · cases hcause
    · split at hcause
      · cases hcause
      · next hgoes =>
          by_contra hwritten
          exact hgoes (.inr (by simpa using hwritten))
  refine .reading (by simp [Pump.report, hcause]) hsteps ?_ hwritten hrefused
  have hannounced := @Phase.announced_report _ _ h ended
  cases h with
  | @awaiting step done heard hp hd hs hl hdone hq ho ha hc hu =>
      have hlog' : (pump.report ended).port.log =
          done ++ .wrote pump.starting.next :: (heard ++ events) := by
        rw [hlog, hl, List.append_assoc, List.cons_append]
      refine .awaiting hp hd hs hlog' hdone ((quiet_append _ _).mpr ⟨hq, hquiet⟩) ?_ ?_ ?_ ?_
      · intro hmust response hmem
        rcases List.mem_append.mp hmem with hmem | hmem
        · exact ho hmust response hmem
        · exact absurd hmem (hheard response)
      · simp [Pump.report, ha, hp]
      · rw [hlog]
        intro hmem
        rcases List.mem_append.mp hmem with hmem | hmem
        · exact hc hmem
        · rw [hp] at hconnected
          cases hconnected hmem
      · rw [hlog]
        exact hu.append hheard
  | started hp hd ht hc hu =>
      refine .started hp hd ?_ (fun _ _ => hannounced) ?_
      · rw [hlog]
        exact ht.append hquiet
      · rw [hlog]
        exact hu.append hheard
  | unwritten _ hw =>
      rw [hw] at hwritten
      cases hwritten
  | refused hp => exact absurd hp (hrefused _)

/-- A connection that ends has stopped at the refusal, where there was one. -/
theorem Phase.stops_report {pump : Pump} (h : Phase steps pump) {ended : Bool}
    {cause : Disconnection} (hcause : pump.cause ended = some cause) :
    StopsAtRefusal steps (pump.report ended).port.log := by
  obtain ⟨events, hlog, hquiet, hheard, hconnected, hended⟩ := report_log pump ended
  refine ⟨fun _ _ => h.announced_report ended, ?_⟩
  intro before response after hsplit hrefuses
  rw [hlog] at hsplit
  rcases split_append hsplit with ⟨rest, hbefore, rfl⟩ | ⟨rest, _, hrest⟩
  · cases h with
    | awaiting _ _ _ _ _ _ _ _ _ hu => exact absurd hrefuses (hu _ _ _ hbefore)
    | started _ _ _ _ hu => exact absurd hrefuses (hu _ _ _ hbefore)
    | unwritten _ _ _ _ _ hu => exact absurd hrefuses (hu _ _ _ hbefore)
    | refused hp ha hc hh =>
        have hnot : cause = .notStarted := by
          simp only [Pump.cause, hp, Option.some.injEq] at hcause
          exact hcause.symm
        have hend := hended cause hcause
        rw [ha, hp, hnot] at hend
        refine ⟨(quiet_append _ _).mpr ⟨hh _ _ _ hbefore hrefuses, hquiet⟩, ?_,
          List.mem_append_right _ hend⟩
        intro hmem
        rcases List.mem_append.mp hmem with hmem | hmem
        · exact hc (by rw [hbefore]; simp [hmem])
        · rw [hp] at hconnected
          cases hconnected hmem
  · exact absurd (by rw [hrest]; simp) (hheard response)

/-- The end of a turn reports a connection as it is, or ends it. -/
theorem kept_report {pump : Pump} (hsteps : pump.starting.steps = steps)
    (h : Phase steps pump) (ended : Bool) : Kept steps (pump.report ended) := by
  cases hcause : pump.cause ended with
  | none => exact h.reading_report hsteps hcause
  | some cause => exact .finished (by simp [Pump.report, hcause]) (h.stops_report hcause)

/-- A turn in which no frame moves on a sequence that has failed keeps the connection. -/
theorem kept_turn (surroundings : Surroundings) {pump : Pump} (h : Kept steps pump)
    {read : PortRead} (hheeds : pump.Heeds surroundings read) :
    Kept steps (pump.turn surroundings read) := by
  unfold Pump.turn
  by_cases hidle : pump.finished = true ∨ read = .interrupted
  · rw [if_pos hidle]
    exact h
  · rw [if_neg hidle]
    cases h with
    | finished hfinished => exact absurd (.inl hfinished) hidle
    | reading hfinished hsteps hphase hwritten hrefused =>
        have hopened : Phase steps (pump.opened read) :=
          hphase.congr rfl rfl rfl hwritten.symm rfl rfl
        -- the frames of the turn, one by one
        have hheard := @run_invariant _ _ _ _
          (fun heard => heard.starting.steps = steps ∧ Phase steps heard)
          (fun heard response hkept hheeded =>
            ⟨(hear_steps surroundings heard response).trans hkept.1,
              phase_hear surroundings hkept.1 hkept.2 hheeded⟩)
          (pump.opened read) _ ⟨hsteps, hopened⟩ (hheeds hfinished)
        refine kept_report ?_ (phase_checkDeadline surroundings hheard.1 hheard.2 read.ends) _
        unfold Pump.checkDeadline
        split
        · exact (tick_steps _ _ _ _).trans hheard.1
        · exact hheard.1

/-- A connection over which the first command could not be written has stopped. -/
theorem stops_unwritten (steps : List Step) : StopsAtRefusal steps [.ended false .ended] := by
  constructor
  · intro before after hsplit
    exact absurd (by rw [hsplit]; simp)
      (show PortEvent.connected ∉ [.ended false .ended] by simp)
  · intro before response after hsplit
    exact absurd (by rw [hsplit]; simp)
      (show PortEvent.heard response ∉ [.ended false .ended] by simp)

/-- A connection begins with its first command sent, or is over. -/
theorem kept_begin (surroundings : Surroundings) (sequence : List Step) :
    Kept sequence (Pump.begin surroundings sequence) := by
  have hquiet : Quiet [] := by
    intro place hmem
    cases hmem
  have hunrefused : Unrefused sequence [] := by
    intro before response after hsplit
    cases before <;> cases hsplit
  have hsteps := send_steps surroundings.accepts (Starting.new sequence) ⟨0, []⟩
    (surroundings.clock 0)
  have hcases := send_cases surroundings.accepts (Starting.new sequence) ⟨0, []⟩
    (surroundings.clock 0)
  have hsent := @phase_send sequence surroundings.accepts
    ⟨.new, .new sequence, .waiting, true, none, false, false, 0, ⟨0, []⟩⟩ (.new sequence) ⟨0, []⟩
    (surroundings.clock 0) rfl rfl (.nothing hquiet) rfl (by simp) hunrefused
  unfold Pump.begin
  dsimp only
  cases hsend : (Starting.new sequence).send surroundings.accepts ⟨0, []⟩
      (surroundings.clock 0) with
  | mk outcome sent =>
      rw [hsend] at hsent hsteps hcases
      rcases hcases with ⟨hnone, hlog⟩ | hsome | hsome
      · cases hnone
        refine .finished rfl ?_
        simp only [Option.isSome_none, Bool.false_eq_true, if_false]
        rw [show sent.2.log = [] from hlog, List.nil_append]
        exact stops_unwritten sequence
      · cases hsome
        refine .reading rfl hsteps (hsent.congr rfl rfl rfl rfl rfl rfl) rfl ?_
        intro refusal hrefused
        cases hrefused
      · cases hsome
        refine .reading rfl hsteps (hsent.congr rfl rfl rfl rfl rfl rfl) rfl ?_
        intro refusal hrefused
        cases hrefused

/-- A connection that is kept has stopped at every refusal. -/
theorem Kept.stops {pump : Pump} (h : Kept steps pump) : StopsAtRefusal steps pump.port.log := by
  cases h with
  | finished _ hlog => exact hlog
  | reading _ _ hphase _ hrefused =>
      constructor
      · intro before after hsplit
        rw [← List.append_nil pump.port.log] at hsplit
        exact hphase.connected (by simp [Quiet]) (by simp) hsplit
      · intro before response after hsplit hrefuses
        cases hphase with
        | awaiting _ _ _ _ _ _ _ _ _ hu => exact absurd hrefuses (hu _ _ _ hsplit)
        | started _ _ _ _ hu => exact absurd hrefuses (hu _ _ _ hsplit)
        | unwritten _ _ _ _ _ hu => exact absurd hrefuses (hu _ _ _ hsplit)
        | refused hp => exact absurd hp (hrefused _)

/-! ## Replies in one read -/

/-- A read of whole frames completes exactly those frames. -/
theorem frames_of_bytes (frames : List ReaderFrame) :
    ((PortRead.bytes (frames.flatMap ReaderFrame.bytes)).frames .new).2 =
      frames.map ReaderFrame.response := by
  have hchunks : [frames.flatMap ReaderFrame.bytes].flatten =
      frames.flatMap ReaderFrame.bytes := List.append_nil _
  have hfeed := frames_scanner.feed_chunks hchunks ⟨.zero, []⟩
  rw [foldl_emit] at hfeed
  have hfed : (Reassembler.new.feedAll [frames.flatMap ReaderFrame.bytes]).2 =
      frames.map ReaderFrame.response := by
    rw [feed_all_eq]
    exact congrArg (fun held => held.1.emitted) hfeed
  exact hfed

/-- A port that takes every write, and a clock that stands still. -/
def Surroundings.still : Surroundings := ⟨fun _ => true, fun _ => 0⟩

/-- The sequence for North America at 22.5 dBm. -/
def sequenceNa : List Step := StartSequence.gen2 .na ⟨2250, by decide⟩

/-- An answer to the first command, as a frame. -/
def stopAnswer : ReaderFrame := ⟨⟨0x2F, 0, [0x02]⟩, by decide⟩

/-- An answer to the second command, as a frame. -/
def versionAnswer (status : UInt16) : ReaderFrame := ⟨⟨0x03, status, []⟩, by simp⟩

/-- A read with the answer to the first command and two answers to the second. -/
def threeAnswers (first second : UInt16) : PortRead :=
  .bytes ([stopAnswer, versionAnswer first, versionAnswer second].flatMap ReaderFrame.bytes)

/-- A refused command that is accepted within the same read moves the sequence on. -/
theorem answered_twice_log :
    (run (Pump.turn .still) (Pump.begin .still sequenceNa) [threeAnswers 0x0101 0]).port.log =
      [.wrote 0, .heard stopAnswer.response, .wrote 1, .heard (versionAnswer 0x0101).response,
        .heard (versionAnswer 0).response, .wrote 2] := by
  rw [run_cons, run_nil]
  unfold Pump.turn
  rw [if_neg (by decide)]
  dsimp only
  unfold threeAnswers
  rw [show (Pump.begin .still sequenceNa).reassembler = .new from rfl, frames_of_bytes]
  rfl

/-! ## Every run -/

/-- In every run in which no frame of a turn moves on a sequence that was refused in it, or that
could not write in it, a connection is announced only when each command was written in order and
answered before the next, and nothing is written behind a refusal, after which the connection ends
not started. -/
theorem start_stops_at_refusal (surroundings : Surroundings) (sequence : List Step)
    (reads : List PortRead)
    (h : Allowed (Pump.turn surroundings) (Pump.Heeds surroundings)
      (Pump.begin surroundings sequence) reads) :
    StopsAtRefusal sequence
      (run (Pump.turn surroundings) (Pump.begin surroundings sequence) reads).port.log := by
  have hkept := @run_invariant _ _ _ _ (Kept sequence)
    (fun _ _ hpump hread => kept_turn surroundings hpump hread) _ _
    (kept_begin surroundings sequence) h
  exact hkept.stops

/-- The firmware version is refused twice in one read, and nothing is written after it. -/
theorem start_stops_at_refusal_version :
    StopsAtRefusal sequenceNa (run (Pump.turn .still) (Pump.begin .still sequenceNa)
      [threeAnswers 0x0101 0x0101]).port.log := by
  refine start_stops_at_refusal .still sequenceNa _ ⟨fun _ => ?_, trivial⟩
  unfold threeAnswers
  rw [show (Pump.begin .still sequenceNa).reassembler = .new from rfl, frames_of_bytes]
  refine ⟨?_, ?_, ?_, trivial⟩
  · intro hfailed
    rcases hfailed with ⟨refusal, hrefused⟩ | hwritten
    · cases hrefused
    · cases hwritten
  · intro hfailed
    rcases hfailed with ⟨refusal, hrefused⟩ | hwritten
    · cases hrefused
    · cases hwritten
  · -- the second refusal is of the command that was refused
    exact fun _ _ => ⟨⟨.version, true⟩, rfl, rfl, rfl⟩

/-- A command that was refused is accepted by the next frame of the same read, and the sequence
goes on to the command behind it. -/
theorem not_start_stops_at_refusal :
    ¬ ∀ (surroundings : Surroundings) (sequence : List Step) (reads : List PortRead),
      StopsAtRefusal sequence
        (run (Pump.turn surroundings) (Pump.begin surroundings sequence) reads).port.log := by
  intro h
  have hstops := (h .still sequenceNa [threeAnswers 0x0101 0]).refused
    [.wrote 0, .heard stopAnswer.response, .wrote 1] (versionAnswer 0x0101).response
    [.heard (versionAnswer 0).response, .wrote 2] answered_twice_log
  have hrefuses : Refuses sequenceNa [.wrote 0, .heard stopAnswer.response, .wrote 1]
      (versionAnswer 0x0101).response := by
    refine ⟨[.wrote 0, .heard stopAnswer.response], 1, ⟨.version, true⟩, [], rfl, ?_, rfl, rfl,
      ⟨rfl, ?_⟩, rfl, ?_⟩
    · intro place hmem
      cases hmem
    · intro htag
      cases htag
    · intro other hmem
      cases hmem
  exact (hstops hrefuses).1 2 (by simp)

end Splitforge.Thingmagic
