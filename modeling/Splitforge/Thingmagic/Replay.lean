import Splitforge.Library.Runs
import Splitforge.Thingmagic.Chunks
import Splitforge.Thingmagic.Pump

/-!
# Reading a capture back

A capture has the bytes of a connection and not the quiet between them, at which the provider gives
up on what it holds. Both come to the frames of the whole stream, in which nothing is waited for,
unless what the provider gave up on turns out to be the start of a frame.
`replay_same_frames` is the theorem.
-/

namespace Splitforge.Thingmagic

open Splitforge.Library

/-! ## The service -/

/-- A call of the port of a connection: a read and what it gave, or a write that went through. -/
inductive PortCall where
  | read (result : PortRead)
  | write (bytes : List UInt8)
deriving DecidableEq

/-- What a call of the port makes of a reassembler, and the frames handed over so far. -/
def listen (state : Reassembler × List Response) (call : PortCall) :
    Reassembler × List Response :=
  match call with
  | .read result =>
      let (reassembler, frames) := result.frames state.1
      (reassembler, state.2 ++ frames)
  | .write _ => state

/-- The bytes a call of the port received. -/
def PortCall.received : PortCall → List UInt8
  | .read (.bytes chunk) => chunk
  | .read _ => []
  | .write _ => []

/-- Whether a call of the port ends its connection. -/
def PortCall.ends : PortCall → Bool
  | .read result => result.ends
  | .write _ => false

/-- The bytes some calls of the port received. -/
def received (calls : List PortCall) : List UInt8 :=
  calls.flatMap PortCall.received

/-! ## The capture -/

/-- `Event`: what happened on the port, as a capture has it. -/
inductive Event where
  | opened
  | openFailed (reason : String)
  | sent (bytes : List UInt8)
  | received (bytes : List UInt8)
  | error (reason : String)
  | eof
  | close
deriving DecidableEq

/-- What the capturing port records of a call. A port that has nothing to say is not recorded. -/
def PortCall.recorded (reason : String) : PortCall → List Event
  | .read (.bytes chunk) => [.received chunk]
  | .read .closed => [.eof]
  | .read .timedOut => []
  | .read .interrupted => []
  | .read .failed => [.error reason]
  | .write bytes => [.sent bytes]

/-- The capture of a connection: the port opened, what was called, and the port dropped. -/
def captureOf (reason : String) (calls : List PortCall) : List Event :=
  .opened :: (calls.flatMap (PortCall.recorded reason) ++ [.close])

/-- The reassembler of the connection being replayed, and the frames handed over so far. -/
structure Replayer where
  connection : Option Reassembler
  frames : List Response

/-- `end`: settles a connection that has ended. -/
def Replayer.finish (replayer : Replayer) : Replayer :=
  ⟨none, replayer.frames ++ replayer.connection.elim [] fun reassembler => reassembler.flush.2⟩

/-- One record of a capture. -/
def Replayer.next (replayer : Replayer) (event : Event) : Replayer :=
  match event with
  | .opened => { replayer.finish with connection := some .new }
  | .close => replayer.finish
  | .eof => replayer.finish
  | .error _ => replayer.finish
  | .sent _ => replayer
  | .received bytes =>
      let (reassembler, frames) := (replayer.connection.getD .new).feed bytes
      ⟨some reassembler, replayer.frames ++ frames⟩
  | .openFailed _ => replayer

/-- `replay`: the frames in a capture. -/
def replay (capture : List Event) : List Response :=
  (run Replayer.next ⟨none, []⟩ capture).finish.frames

/-! ## The frames of a stream -/

/-- The frames of a stream that nothing comes behind. -/
def streamFrames (stream : List UInt8) : List Response :=
  ((scanner .giveUp).run ⟨.zero, []⟩ stream).1.emitted

/-- A header that a flush of held bytes abandons, with the bytes behind it: the scan comes to it and
there are too few bytes to tell. -/
def Abandons (held rest : List UInt8) : Prop :=
  rest ≠ [] ∧ (∃ needed, decode rest = .ok (.incomplete needed)) ∧
    ∃ scan, (scanner .giveUp).Reaches ⟨.zero, []⟩ held scan rest

/-- Scans that handed over the same frames. -/
def SameFrames (scan scan' : Scan) : Prop :=
  scan.emitted = scan'.emitted

theorem same_frames_equivalence : Equivalence SameFrames :=
  ⟨fun _ => rfl, Eq.symm, Eq.trans⟩

/-- Scans that handed over the same frames go on to do so. -/
theorem same_frames_run (incomplete : Incomplete) {scan scan' : Scan} (h : SameFrames scan scan')
    (remaining : List UInt8) :
    Scanner.Alike SameFrames ((scanner incomplete).run scan remaining)
      ((scanner incomplete).run scan' remaining) := by
  refine Scanner.alike_run (fun scan scan' remaining h => ?_) h remaining
  refine rel_next (fun response => ?_) (fun error skip => ?_) (fun skip => h) _ _
  · exact congrArg (fun emitted => emitted ++ [response]) h
  · exact h

/-- Settled scans handed over the same frames. -/
theorem same_frames_of_settled {scan scan' : Scan} (h : Settled scan scan') :
    SameFrames scan scan' := by
  have hemitted := congrArg Scan.emitted h
  exact hemitted

/-- Skipping and going on with more behind it is like skipping with that behind it already. -/
theorem skip_append (scan scan' : Scan) (h : SameFrames scan scan') {remaining : List UInt8}
    (hnil : remaining ≠ []) (more : List UInt8) :
    Scanner.Alike SameFrames
      ((scanner .giveUp).run (scan.skip remaining).1 ((scan.skip remaining).2 ++ more))
      ((scanner .giveUp).run (scan'.skip (remaining ++ more)).1
        (scan'.skip (remaining ++ more)).2) := by
  have hskip : SameFrames (scan.skip remaining).1 (scan'.skip (remaining ++ more)).1 := h
  rcases skipped_append hnil more with ⟨hle, hsame⟩ | ⟨hall, hmore⟩
  · have hrest : (scan'.skip (remaining ++ more)).2 = (scan.skip remaining).2 ++ more := by
      show (remaining ++ more).drop (skipped (remaining ++ more)) = _
      rw [hsame, List.drop_append_of_le_length hle]
      rfl
    rw [hrest]
    exact same_frames_run .giveUp hskip _
  · -- everything held is skipped, and so is what comes up to the next start byte
    have hheld : (scan.skip remaining).2 = [] := by
      show remaining.drop (skipped remaining) = []
      rw [hall, List.drop_length]
    have hrest : (scan'.skip (remaining ++ more)).2 = more.drop (noise more) := by
      show (remaining ++ more).drop (skipped (remaining ++ more)) = _
      rw [hmore, List.drop_append, List.drop_eq_nil_of_le (Nat.le_add_right _ _),
        List.nil_append, Nat.add_sub_cancel_left]
    obtain ⟨hsettled, hleft⟩ := run_noise .giveUp (scan.skip remaining).1 more
    have hdiscard : SameFrames ((scan.skip remaining).1.discard (noise more))
      (scan'.skip (remaining ++ more)).1 := h
    have hgo := same_frames_run .giveUp hdiscard (more.drop (noise more))
    rw [hheld, hrest, List.nil_append]
    exact ⟨(same_frames_of_settled hsettled).trans hgo.1, hleft.trans hgo.2⟩

/-- A turn, and the whole stream from there, come to the whole stream from before it, unless what
the turn abandons is a frame in the stream. -/
theorem resume_turn {incomplete : Incomplete} {scan scan' : Scan} {remaining rest : List UInt8}
    (h : scan.next incomplete remaining = some (scan', rest)) (more : List UInt8)
    (hfalse : ∀ needed, decode remaining = .ok (.incomplete needed) →
      ∀ response consumed, decode (remaining ++ more) ≠ .ok (.frame response consumed)) :
    Scanner.Alike SameFrames ((scanner .giveUp).run scan' (rest ++ more))
      ((scanner .giveUp).run scan (remaining ++ more)) := by
  obtain ⟨hnil, hcases⟩ := Scan.next_cases h
  have hne : remaining ++ more ≠ [] := List.append_ne_nil_of_left_ne_nil hnil more
  -- what is not a frame is skipped, whatever it is counted as
  have hskips : (∀ response consumed, decode (remaining ++ more) ≠ .ok (.frame response consumed)) →
      ∃ counted, SameFrames scan counted ∧
        (scanner .giveUp).next scan (remaining ++ more) =
          some (counted.skip (remaining ++ more)) := by
    intro hframe
    cases hdecode : decode (remaining ++ more) with
    | error error =>
        refine ⟨scan.count error, rfl, ?_⟩
        show Scan.next .giveUp scan (remaining ++ more) = _
        rw [Scan.next, if_neg hne, hdecode]
    | ok decoded =>
        cases decoded with
        | frame response consumed => exact absurd hdecode (hframe response consumed)
        | incomplete needed =>
            refine ⟨scan.abandon, rfl, ?_⟩
            show Scan.next .giveUp scan (remaining ++ more) = _
            rw [Scan.next, if_neg hne, hdecode]
  rcases hcases with ⟨response, consumed, hdecode, hafter⟩ | ⟨error, hdecode, hafter⟩ |
    ⟨needed, hdecode, _, hafter⟩
  · obtain ⟨rfl, rfl⟩ := Prod.mk.inj hafter
    have hmore : decode (remaining ++ more) = .ok (.frame response consumed) := by
      rw [← hdecode]
      refine decode_append (fun needed hneeded => ?_) more
      rw [hdecode] at hneeded
      cases hneeded
    have hstep : (scanner .giveUp).next scan (remaining ++ more) =
        some (scan.emit response, remaining.drop consumed ++ more) := by
      show Scan.next .giveUp scan (remaining ++ more) = _
      rw [Scan.next, if_neg hne, hmore]
      simp only [List.drop_append_of_le_length (consumed_of_decode hdecode).2]
    rw [Scanner.run_eq_run hstep]
    exact ⟨rfl, rfl⟩
  · obtain ⟨rfl, rfl⟩ := Prod.mk.inj hafter
    have hmore : decode (remaining ++ more) = .error error := by
      rw [← hdecode]
      refine decode_append (fun needed hneeded => ?_) more
      rw [hdecode] at hneeded
      cases hneeded
    obtain ⟨counted, hsame, hstep⟩ := hskips fun response consumed hframe => by
      rw [hmore] at hframe
      cases hframe
    rw [Scanner.run_eq_run hstep]
    exact skip_append (scan.count error) counted hsame hnil more
  · obtain ⟨rfl, rfl⟩ := Prod.mk.inj hafter
    obtain ⟨counted, hsame, hstep⟩ := hskips (hfalse needed hdecode)
    rw [Scanner.run_eq_run hstep]
    exact skip_append scan.abandon counted hsame hnil more

/-- A scan that has handed over something hands over the frames of the stream behind it. -/
theorem emitted_run (scan : Scan) (stream : List UInt8) :
    ((scanner .giveUp).run scan stream).1.emitted = scan.emitted ++ streamFrames stream := by
  have hscan : scan = (⟨.zero, []⟩ : Scan).after scan.stats scan.emitted := by
    simp [Scan.after, Stats.add, Stats.zero]
  have hrun := run_after scan.stats scan.emitted .giveUp ⟨.zero, []⟩ stream
  rw [← hscan] at hrun
  rw [hrun]
  rfl

/-- A scan of a reassembler hands over the first frames of what it holds and what is still to come,
unless it abandons one of them. -/
theorem stream_frames_scan (incomplete : Incomplete) (reassembler : Reassembler)
    (more : List UInt8)
    (hfalse : ∀ {scan rest scan' rest'},
      (scanner incomplete).Reaches ⟨.zero, []⟩ reassembler.buffer scan rest →
      scan.next incomplete rest = some (scan', rest') →
      ∀ needed, decode rest = .ok (.incomplete needed) →
        ∀ response consumed, decode (rest ++ more) ≠ .ok (.frame response consumed)) :
    (reassembler.scan incomplete).2 ++
        streamFrames ((reassembler.scan incomplete).1.buffer ++ more) =
      streamFrames (reassembler.buffer ++ more) := by
  have hresume := Scanner.alike_resume same_frames_equivalence more ⟨.zero, []⟩
    reassembler.buffer fun {_ _ _ _} hreaches hnext =>
      resume_turn hnext more (hfalse hreaches hnext)
  have hframes : Scan.emitted _ = Scan.emitted _ := hresume.1
  rw [emitted_run] at hframes
  exact hframes

/-- A feed hands over the first frames of what is held, what is fed in and what is still to
come. -/
theorem stream_frames_feed (reassembler : Reassembler) (bytes more : List UInt8) :
    (reassembler.feed bytes).2 ++ streamFrames ((reassembler.feed bytes).1.buffer ++ more) =
      streamFrames (reassembler.buffer ++ (bytes ++ more)) := by
  rw [← List.append_assoc]
  refine stream_frames_scan .wait ⟨reassembler.buffer ++ bytes, reassembler.stats⟩ more ?_
  intro scan rest scan' rest' _ hnext needed hneeded
  -- what is waited for is not settled
  unfold Scan.next at hnext
  rw [hneeded] at hnext
  exact absurd (hnext.symm.trans (ite_self _)) (Option.some_ne_none _)

/-- A flush hands over the first frames of what is held and what is still to come, unless it
abandons one of them. -/
theorem stream_frames_flush (reassembler : Reassembler) (more : List UInt8)
    (hfalse : ∀ rest, Abandons reassembler.buffer rest →
      ∀ response consumed, decode (rest ++ more) ≠ .ok (.frame response consumed)) :
    reassembler.flush.2 ++ streamFrames (reassembler.flush.1.buffer ++ more) =
      streamFrames (reassembler.buffer ++ more) := by
  refine stream_frames_scan .giveUp reassembler more ?_
  intro scan rest scan' rest' hreaches hnext needed hneeded
  exact hfalse rest ⟨(Scan.next_cases hnext).1, ⟨needed, hneeded⟩, scan, hreaches⟩

/-- The last flush hands over all frames of what is held: nothing comes behind. -/
theorem frames_flush (reassembler : Reassembler) :
    reassembler.flush.2 = streamFrames reassembler.buffer := rfl

/-! ## The connection -/

/-- No flush while a connection lasts abandons a header that begins a frame in the stream. `earlier`
are the calls before the flush, and what the later ones receive comes behind the header. -/
def AbandonsNoFrame (calls : List PortCall) : Prop :=
  ∀ earlier later, calls = earlier ++ .read .timedOut :: later →
    ∀ rest, Abandons (run listen (.new, []) earlier).1.buffer rest →
      ∀ response consumed, decode (rest ++ received later) ≠ .ok (.frame response consumed)

/-- While a connection lasts, what was handed over and the frames of what is held and still to come
are the frames of the stream. -/
theorem listen_run {state : Reassembler × List Response} {calls : List PortCall}
    (hends : ∀ call ∈ calls, call.ends = false)
    (hfalse : ∀ earlier later, calls = earlier ++ .read .timedOut :: later →
      ∀ rest, Abandons (run listen state earlier).1.buffer rest →
        ∀ response consumed, decode (rest ++ received later) ≠ .ok (.frame response consumed)) :
    (run listen state calls).2 ++ streamFrames (run listen state calls).1.buffer =
      state.2 ++ streamFrames (state.1.buffer ++ received calls) := by
  induction calls generalizing state with
  | nil =>
      show _ = state.2 ++ streamFrames (state.1.buffer ++ [])
      rw [List.append_nil]
      rfl
  | cons call calls ih =>
      have hcall := hends call List.mem_cons_self
      have hrest := @ih (listen state call)
        (fun later hlater => hends later (List.mem_cons_of_mem _ hlater))
        fun earlier later heq => hfalse (call :: earlier) later (congrArg (List.cons call) heq)
      have hfirst : (listen state call).2 ++
          streamFrames ((listen state call).1.buffer ++ received calls) =
            state.2 ++ streamFrames (state.1.buffer ++ received (call :: calls)) := by
        cases call with
        | write bytes => rfl
        | read result =>
            cases result with
            | closed => cases hcall
            | failed => cases hcall
            | interrupted =>
                show state.2 ++ [] ++ streamFrames (state.1.buffer ++ received calls) = _
                rw [List.append_nil]
                rfl
            | bytes chunk =>
                have hfeed := stream_frames_feed state.1 chunk (received calls)
                exact (List.append_assoc _ _ _).trans (congrArg (state.2 ++ ·) hfeed)
            | timedOut =>
                have hflush := stream_frames_flush state.1 (received calls)
                  (hfalse [] calls rfl)
                exact (List.append_assoc _ _ _).trans (congrArg (state.2 ++ ·) hflush)
      exact hrest.trans hfirst

/-! ## The replay -/

/-- The records of a connection that lasts feed its bytes to one reassembler. -/
theorem replay_run (reason : String) {calls : List PortCall}
    (hends : ∀ call ∈ calls, call.ends = false) (reassembler : Reassembler)
    (frames : List Response) :
    ∃ held emitted, run Replayer.next ⟨some reassembler, frames⟩
        (calls.flatMap (PortCall.recorded reason)) = ⟨some held, frames ++ emitted⟩ ∧
      emitted ++ streamFrames held.buffer =
        streamFrames (reassembler.buffer ++ received calls) := by
  induction calls generalizing reassembler frames with
  | nil =>
      refine ⟨reassembler, [], by rw [List.append_nil]; rfl, ?_⟩
      show _ = streamFrames (reassembler.buffer ++ [])
      rw [List.append_nil]
      rfl
  | cons call calls ih =>
      have hcall := hends call List.mem_cons_self
      have hrest := ih fun later hlater => hends later (List.mem_cons_of_mem _ hlater)
      rw [List.flatMap_cons, run_append]
      cases call with
      | write bytes => exact hrest reassembler frames
      | read result =>
          cases result with
          | closed => cases hcall
          | failed => cases hcall
          | interrupted => exact hrest reassembler frames
          | timedOut => exact hrest reassembler frames
          | bytes chunk =>
              obtain ⟨held, emitted, hrun, hframes⟩ := hrest (reassembler.feed chunk).1
                (frames ++ (reassembler.feed chunk).2)
              refine ⟨held, (reassembler.feed chunk).2 ++ emitted, ?_, ?_⟩
              · rw [← List.append_assoc]
                exact hrun
              · rw [List.append_assoc, hframes]
                exact stream_frames_feed reassembler chunk (received calls)

/-- Reading the capture of a connection back hands over the frames of its stream. -/
theorem replay_capture (reason : String) {calls : List PortCall} {last : PortRead}
    (hends : ∀ call ∈ calls, call.ends = false) (hlast : last.ends = true) :
    replay (captureOf reason (calls ++ [.read last])) = streamFrames (received calls) := by
  obtain ⟨held, emitted, hrun, hframes⟩ := replay_run reason hends .new []
  have hclosed (event : Event) (hevent : Replayer.next ⟨some held, emitted⟩ event =
      Replayer.finish ⟨some held, emitted⟩) :
      (run Replayer.next ⟨some held, emitted⟩ [event, .close]).finish.frames =
        streamFrames (received calls) := by
    rw [run_cons, hevent]
    show emitted ++ held.flush.2 ++ [] ++ [] = _
    rw [List.append_nil, List.append_nil, frames_flush]
    exact hframes
  rw [replay, captureOf, run_cons, List.flatMap_append, List.append_assoc, run_append]
  show (run Replayer.next (run Replayer.next ⟨some .new, []⟩ _) _).finish.frames = _
  rw [hrun]
  cases last with
  | bytes chunk => cases hlast
  | timedOut => cases hlast
  | interrupted => cases hlast
  | closed => exact hclosed .eof rfl
  | failed => exact hclosed (.error reason) rfl

/-- Replaying the capture of a connection hands over the frames the service took, in order, when no
header that a flush abandoned begins a frame in the stream. -/
theorem replay_same_frames (reason : String) (calls : List PortCall) (last : PortRead)
    (hends : ∀ call ∈ calls, call.ends = false) (hlast : last.ends = true)
    (hfalse : AbandonsNoFrame calls) :
    (run listen (.new, []) (calls ++ [.read last])).2 =
      replay (captureOf reason (calls ++ [.read last])) := by
  have hlive := listen_run hends hfalse
  have hflush : (run listen (.new, []) (calls ++ [.read last])).2 =
      (run listen (.new, []) calls).2 ++ (run listen (.new, []) calls).1.flush.2 := by
    rw [run_append]
    cases last with
    | bytes chunk => cases hlast
    | timedOut => cases hlast
    | interrupted => cases hlast
    | closed => rfl
    | failed => rfl
  rw [replay_capture reason hends hlast, hflush, frames_flush, hlive]
  rfl

/-- A start byte that the line went quiet behind, and a frame. -/
def quietCalls : List PortCall :=
  [.read (.bytes [soh]), .read .timedOut, .read (.bytes nestedFrame.bytes)]

/-- The start byte is abandoned, and does not begin a frame: the byte behind it declares too
much. -/
theorem quiet_calls_abandon_no_frame : AbandonsNoFrame quietCalls := by
  intro earlier later heq rest hrest response consumed hframe
  obtain ⟨hnil, _, scan, hreaches⟩ := hrest
  have hsplit : earlier = [.read (.bytes [soh])] ∧
      later = [.read (.bytes nestedFrame.bytes)] := by
    match earlier with
    | [] => cases heq
    | [first] =>
        obtain ⟨rfl, hlater⟩ := List.cons.inj heq
        exact ⟨rfl, (List.cons.inj hlater).2.symm⟩
    | first :: second :: [] =>
        cases (List.cons.inj (List.cons.inj (List.cons.inj heq).2).2).1
    | first :: second :: third :: earlier =>
        have hlast := (List.cons.inj (List.cons.inj (List.cons.inj heq).2).2).2
        exact absurd hlast.symm (List.append_ne_nil_of_right_ne_nil _ (List.cons_ne_nil _ _))
  obtain ⟨rfl, rfl⟩ := hsplit
  have hheld : (run listen (.new, []) [.read (.bytes [soh])]).1.buffer = [soh] := by
    show ((scanner .wait).run ⟨.zero, []⟩ [soh]).2 = [soh]
    rw [Scanner.run_eq_self rfl]
  rw [hheld] at hreaches
  cases hreaches with
  | refl =>
      have hlong : decode ([soh] ++ received [.read (.bytes nestedFrame.bytes)]) =
          .error (.dataTooLong 255) := rfl
      rw [hlong] at hframe
      cases hframe
  | step hnext hreaches =>
      cases hnext
      cases hreaches with
      | refl => exact hnil rfl
      | step hnext => cases Scanner.next_nil.symm.trans hnext

theorem replay_same_frames_quiet :
    (run listen (.new, []) (quietCalls ++ [.read .closed])).2 =
      replay (captureOf "" (quietCalls ++ [.read .closed])) :=
  replay_same_frames "" quietCalls .closed (by decide) rfl quiet_calls_abandon_no_frame

end Splitforge.Thingmagic
