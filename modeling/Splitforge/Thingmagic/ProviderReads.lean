import Splitforge.Thingmagic.Provider

/-!
# No read is lost on the way to the channel

A provider decodes frame by frame, and sends turn by turn, across any number of connections. Run
with a decoder that only records, it shows which frames a decoder is given. Whatever the decoder,
the reads that are sent are what it makes of these frames in one pass: none is lost, made up, sent
twice or out of order, and a consumer that leaves has taken the first of them.
-/

namespace Splitforge.Thingmagic

open Splitforge.Domain Splitforge.Library

/-! ## One pass over frames -/

/-- A decoder that keeps the frames it is given. -/
structure Recorder where
  frames : List (Response × SessionAnchor)

instance : TagReportDecoder Recorder where
  decode recorder response anchor := (⟨recorder.frames ++ [(response, anchor)]⟩, [])
  faults _ := 0
  heard _ := 0

variable {D : Type} [TagReportDecoder D]

/-- One more frame, decoded behind the reads so far. -/
def decodeNext (state : D × List ReaderMessage) (frame : Response × SessionAnchor) :
    D × List ReaderMessage :=
  let (decoder, reads) := TagReportDecoder.decode state.1 frame.1 frame.2
  (decoder, state.2 ++ reads)

/-- Frames decoded one after another, and all the reads they carry. -/
def decodeAll (decoder : D) (frames : List (Response × SessionAnchor)) : D × List ReaderMessage :=
  frames.foldl decodeNext (decoder, [])

/-- The reads among events. -/
def readsOf (events : List ReaderEvent) : List ReaderMessage :=
  events.filterMap fun event => match event with
    | .read message => some message
    | _ => none

/-- An event with a consumer that listens. -/
def ProviderEvent.patient : ProviderEvent → ProviderEvent
  | .notOpened reason _ => .notOpened reason .listening
  | .opened machine _ => .opened machine .listening
  | .read chunk elapsed _ => .read chunk elapsed .listening

/-- The frames a decoder is given: all that are verified, less those the start sequence claims. -/
def framesGiven (backoff : Backoff) (start : Option (List Step)) (events : List ProviderEvent) :
    List (Response × SessionAnchor) :=
  (run Provider.step (.new (.new (⟨[]⟩ : Recorder) backoff start))
    (events.map ProviderEvent.patient)).reader.decoder.frames

theorem reads_of_append (first second : List ReaderEvent) :
    readsOf (first ++ second) = readsOf first ++ readsOf second :=
  List.filterMap_append

theorem reads_of_reads (reads : List ReaderMessage) : readsOf (reads.map .read) = reads := by
  simp [readsOf, List.filterMap_map]

theorem decode_all_append (decoder : D) (frames more : List (Response × SessionAnchor)) :
    decodeAll decoder (frames ++ more) = more.foldl decodeNext (decodeAll decoder frames) :=
  List.foldl_append

/-- What is decoded later comes behind. -/
theorem reads_front_foldl (state : D × List ReaderMessage)
    (frames : List (Response × SessionAnchor)) :
    state.2 <+: (frames.foldl decodeNext state).2 := by
  induction frames generalizing state with
  | nil => exact List.prefix_refl _
  | cons frame frames ih => exact (List.prefix_append _ _).trans (ih (decodeNext state frame))

/-! ## What a turn sends -/

/-- The reads of a turn are sent, and no others. -/
theorem reads_of_report (reader : ThingMagicReader D) (connection : Connection D)
    (read : PortRead) (elapsed : Nat) :
    readsOf (reader.report connection read elapsed).events = connection.reads := by
  have hconnected : readsOf (if !connection.pump.announced &&
      reader.established connection.pump elapsed then [.connected] else []) = [] := by
    split <;> rfl
  have hpower : readsOf (connection.pump.power.map fun report =>
      .transmitPower report.transmitPower).toList = [] := by
    cases connection.pump.power <;> rfl
  have hfaults : ∀ faults : ReaderFaults, readsOf (reader.reportFaults faults) = [] := by
    intro faults
    unfold ThingMagicReader.reportFaults
    split <;> rfl
  have halive : readsOf (if reader.heardReported < TagReportDecoder.heard connection.decoder
      then [.alive] else []) = [] := by
    split <;> rfl
  unfold ThingMagicReader.report
  simp only [reads_of_append, hconnected, hpower, hfaults, halive, reads_of_reads,
    List.append_nil, List.nil_append]

/-! ## What a consumer takes -/

theorem taken_of_takes_all {consumer : Consumer} {events : List ReaderEvent}
    (h : consumer.takesAll events = true) : consumer.taken events = events := by
  unfold Consumer.takesAll at h
  unfold Consumer.taken
  cases htakes : consumer.takes with
  | none => rfl
  | some count =>
      rw [htakes] at h
      exact List.take_of_length_le (by simpa using h)

/-- A consumer takes the first of the events. -/
theorem taken_front (consumer : Consumer) (events : List ReaderEvent) :
    consumer.taken events <+: events := by
  unfold Consumer.taken
  cases consumer.takes with
  | none => exact List.prefix_refl _
  | some count => exact List.take_prefix _ _

theorem reads_of_front {first second : List ReaderEvent} (h : first <+: second) :
    readsOf first <+: readsOf second :=
  h.filterMap _

/-! ## The decoder of a connection -/

/-- Between turns a connection has the decoder of its reader, and no read is left over. -/
def Provider.Held (provider : Provider D) : Prop :=
  ∀ connection, provider.standing = .reading connection →
    connection.decoder = provider.reader.decoder ∧ connection.reads = []

omit [TagReportDecoder D] in
theorem held_conclude (provider : Provider D) (established : Bool) (events : List ReaderEvent)
    (cause : Disconnection) (consumer : Consumer) :
    (provider.conclude established events cause consumer).Held := by
  intro connection hreading
  unfold Provider.conclude at hreading
  simp only at hreading
  split at hreading
  · cases hreading
  · cases hreading

theorem held_step {provider : Provider D} (h : provider.Held) (event : ProviderEvent) :
    (provider.step event).Held := by
  unfold Provider.step
  split
  · exact held_conclude _ _ _ _ _
  · unfold Provider.opened
    simp only
    split
    · exact held_conclude _ _ _ _ _
    · intro connection hreading
      cases hreading
      exact ⟨rfl, rfl⟩
  · split
    · exact h
    · unfold Provider.pump
      simp only
      split
      · exact held_conclude _ _ _ _ _
      · intro connection hreading
        simp only at hreading
        split at hreading
        · cases hreading
          exact ⟨rfl, rfl⟩
        · cases hreading
  · exact h

omit [TagReportDecoder D] in
/-- The decoder is what the end of an attempt leaves alone. -/
@[simp]
theorem conclude_decoder (provider : Provider D) (established : Bool) (events : List ReaderEvent)
    (cause : Disconnection) (consumer : Consumer) :
    (provider.conclude established events cause consumer).reader.decoder =
      provider.reader.decoder := by
  unfold Provider.conclude
  cases established <;> rfl

omit [TagReportDecoder D] in
/-- The end of an attempt either had the consumer take everything, and a wait comes behind it, or
is the last thing the provider does. -/
theorem conclude_cases (provider : Provider D) (established : Bool) (events : List ReaderEvent)
    (cause : Disconnection) (consumer : Consumer) :
    ((provider.conclude established events cause consumer).standing = .waiting ∧
      (provider.conclude established events cause consumer).sent =
        provider.sent ++ (events ++ [.disconnected cause]) ∧
      (provider.conclude established events cause consumer).delays = provider.delays ++
        [provider.reader.backoff.delay (if established then 0 else nextFailure provider.failures)
          (UInt64.ofNat provider.attempt)]) ∨
    ((provider.conclude established events cause consumer).standing = .stopped ∧
      (provider.conclude established events cause consumer).delays = provider.delays) := by
  by_cases hstays : (consumer.takesAll (events ++ [.disconnected cause]) && !consumer.closed) = true
  · have htakes : consumer.takesAll (events ++ [.disconnected cause]) = true := by
      simp only [Bool.and_eq_true] at hstays
      exact hstays.1
    refine .inl ⟨if_pos hstays, ?_, ?_⟩
    · show provider.sent ++ consumer.taken _ = _
      rw [taken_of_takes_all htakes]
    · refine (if_pos hstays).trans ?_
      cases established <;> rfl
  · exact .inr ⟨if_neg hstays, if_neg hstays⟩

/-! ## The recorder beside a decoder -/

/-- A connection beside one with a recorder: they are alike in what the port decides, and the
decoder is behind the frames that were recorded. -/
structure Beside (first : D) (sent : List ReaderMessage) (connection : Connection D)
    (recorded : Connection Recorder) : Prop where
  machine : connection.machine = recorded.machine
  pump : connection.pump = recorded.pump
  anchor : connection.anchor = recorded.anchor
  decoded : decodeAll first recorded.decoder.frames =
    (connection.decoder, sent ++ connection.reads)

variable {first : D} {sent : List ReaderMessage} {connection : Connection D}
variable {recorded : Connection Recorder}

/-- One more frame. -/
theorem Beside.hear (h : Beside first sent connection recorded) (response : Response) :
    Beside first sent (connection.hear response) (recorded.hear response) := by
  obtain ⟨machine, pump, anchor, decoder, reads⟩ := connection
  obtain ⟨rfl, rfl, rfl, hdecoded⟩ := h
  unfold Connection.hear
  by_cases hclaims : recorded.pump.starting.claims response = true
  · rw [if_pos hclaims, if_pos hclaims]
    exact ⟨rfl, rfl, rfl, hdecoded⟩
  · rw [if_neg hclaims, if_neg hclaims]
    refine ⟨rfl, rfl, rfl, ?_⟩
    show decodeAll first (recorded.decoder.frames ++ [(response, recorded.anchor)]) = _
    rw [decode_all_append, hdecoded]
    exact congrArg (Prod.mk _) (List.append_assoc _ _ _)

/-- The frames of a read, and the deadline behind them. -/
theorem Beside.heard (h : Beside first sent connection recorded) (starts : Bool)
    (read : PortRead) :
    Beside first sent ((connection.heard read).checked starts read)
      ((recorded.heard read).checked starts read) := by
  have hrun : ∀ (frames : List Response) {connection : Connection D}
      {recorded : Connection Recorder}, Beside first sent connection recorded →
      Beside first sent (run Connection.hear connection frames)
        (run Connection.hear recorded frames) := by
    intro frames
    induction frames with
    | nil => exact fun h => h
    | cons response frames ih => exact fun h => ih (h.hear response)
  have hopened : Beside first sent (connection.heard read) (recorded.heard read) := by
    unfold Connection.heard
    rw [h.pump]
    exact hrun _ ⟨h.machine, rfl, h.anchor, h.decoded⟩
  cases starts with
  | false => exact hopened
  | true =>
      refine ⟨hopened.machine, ?_, hopened.anchor, hopened.decoded⟩
      show Pump.checkDeadline (connection.heard read).machine.toSurroundings
        (connection.heard read).pump read.ends = Pump.checkDeadline
          (recorded.heard read).machine.toSurroundings (recorded.heard read).pump read.ends
      rw [hopened.machine, hopened.pump]

/-- A provider beside one with a recorder and a consumer that listens: both wait, or both read
connections that are beside each other, and what was sent is what was decoded. -/
inductive Abreast (first : D) (provider : Provider D) (recorded : Provider Recorder) : Prop where
  | waiting (hstart : provider.reader.start = recorded.reader.start)
      (hbackoff : provider.reader.backoff = recorded.reader.backoff)
      (hprovider : provider.standing = .waiting) (hrecorded : recorded.standing = .waiting)
      (hdecoded : decodeAll first recorded.reader.decoder.frames =
        (provider.reader.decoder, readsOf provider.sent))
  | reading (hstart : provider.reader.start = recorded.reader.start)
      (hbackoff : provider.reader.backoff = recorded.reader.backoff)
      {connection : Connection D} {beside : Connection Recorder}
      (hprovider : provider.standing = .reading connection)
      (hrecorded : recorded.standing = .reading beside)
      (hbeside : Beside first (readsOf provider.sent) connection beside)
      (hreads : connection.reads = [])

/-! ## What is recorded -/

/-- A recorder only gains frames. -/
theorem recorded_heard (recorded : Connection Recorder) (starts : Bool) (read : PortRead) :
    recorded.decoder.frames <+:
      ((recorded.heard read).checked starts read).decoder.frames := by
  have hhear : ∀ (recorded : Connection Recorder) (response : Response),
      recorded.decoder.frames <+: (recorded.hear response).decoder.frames := by
    intro recorded response
    unfold Connection.hear
    simp only
    split
    · exact List.prefix_refl _
    · exact List.prefix_append _ _
  have hrun : ∀ (frames : List Response) (recorded : Connection Recorder),
      recorded.decoder.frames <+: (run Connection.hear recorded frames).decoder.frames := by
    intro frames
    induction frames with
    | nil => exact fun recorded => List.prefix_refl _
    | cons response frames ih =>
        exact fun recorded => (hhear recorded response).trans (ih (recorded.hear response))
  have hheard : recorded.decoder.frames <+: (recorded.heard read).decoder.frames :=
    hrun _ { recorded with pump := recorded.pump.opened read }
  cases starts with
  | false => exact hheard
  | true => exact hheard

/-- No step of a provider loses a recorded frame. -/
theorem recorded_step {provider : Provider Recorder} (h : provider.Held) (event : ProviderEvent) :
    provider.reader.decoder.frames <+: (provider.step event).reader.decoder.frames := by
  unfold Provider.step
  split
  · unfold Provider.notOpened
    simp
  · unfold Provider.opened
    simp only
    split
    · simp
    · exact List.prefix_refl _
  · rename_i connection read elapsed consumer hreading
    split
    · exact List.prefix_refl _
    · rw [← (h connection hreading).1]
      unfold Provider.pump
      simp only
      split
      · rw [conclude_decoder]
        exact recorded_heard connection _ read
      · exact recorded_heard connection _ read
  · exact List.prefix_refl _

/-! ## Runs -/

/-- A provider that is still up is abreast of the recorder, and one that has stopped had its
consumer take the first of the reads. -/
inductive Follows (first : D) (provider : Provider D) (recorded : Provider Recorder) : Prop where
  | running (h : Abreast first provider recorded)
  | stopped (hprovider : provider.standing = .stopped)
      (htaken : readsOf provider.sent <+:
        (decodeAll first recorded.reader.decoder.frames).2)

variable {provider : Provider D} {listened : Provider Recorder}

/-- The ends of two attempts that are beside each other. -/
theorem follows_conclude (hstart : provider.reader.start = listened.reader.start)
    (hbackoff : provider.reader.backoff = listened.reader.backoff) (established established' : Bool)
    {events events' : List ReaderEvent} (cause : Disconnection) (consumer : Consumer)
    (hdecoded : decodeAll first listened.reader.decoder.frames =
      (provider.reader.decoder, readsOf provider.sent ++ readsOf events)) :
    Follows first (provider.conclude established events cause consumer)
      (listened.conclude established' events' cause .listening) := by
  have hreads : readsOf (events ++ [.disconnected cause]) = readsOf events := by
    rw [reads_of_append]
    exact List.append_nil _
  rcases conclude_cases provider established events cause consumer with
    ⟨hwaits, hsent, -⟩ | ⟨hstops, -⟩
  · refine .running (.waiting ?_ ?_ hwaits rfl ?_)
    · cases established <;> cases established' <;> exact hstart
    · cases established <;> cases established' <;> exact hbackoff
    · rw [conclude_decoder, conclude_decoder, hdecoded, hsent, reads_of_append, hreads]
  · refine .stopped hstops ?_
    rw [conclude_decoder, hdecoded]
    show readsOf (provider.sent ++ consumer.taken (events ++ [.disconnected cause])) <+: _
    rw [reads_of_append, ← hreads]
    exact (List.prefix_append_right_inj _).mpr (reads_of_front (taken_front _ _))

/-- A turn of a connection beside the one that is recorded. -/
theorem follows_pump (hstart : provider.reader.start = listened.reader.start)
    (hbackoff : provider.reader.backoff = listened.reader.backoff)
    {connection : Connection D} {recorded : Connection Recorder}
    (hbeside : Beside first (readsOf provider.sent) connection recorded) (read : PortRead)
    (elapsed : Nat) (consumer : Consumer) :
    Follows first (provider.pump connection read elapsed consumer)
      (listened.pump recorded read elapsed .listening) := by
  have hheard := hbeside.heard provider.reader.start.isSome read
  rw [hstart] at hheard
  have hended : (provider.reader.turn connection read elapsed).ended =
      (listened.reader.turn recorded read elapsed).ended := by
    show Pump.cause _ _ = Pump.cause _ _
    rw [hstart, hheard.pump]
  have hdecoded : decodeAll first
      (listened.reader.turn recorded read elapsed).reader.decoder.frames =
        ((provider.reader.turn connection read elapsed).reader.decoder, readsOf provider.sent ++
          readsOf (provider.reader.turn connection read elapsed).events) := by
    unfold ThingMagicReader.turn
    rw [reads_of_report, hstart]
    exact hheard.decoded
  unfold Provider.pump
  simp only
  rw [← hended]
  cases (provider.reader.turn connection read elapsed).ended with
  | some cause =>
      exact follows_conclude (by exact hstart) (by exact hbackoff) _ _ cause consumer hdecoded
  | none =>
      by_cases htakes :
          consumer.takesAll (provider.reader.turn connection read elapsed).events = true
      · refine .running (.reading hstart hbackoff (if_pos htakes) rfl ⟨?_, ?_, ?_, ?_⟩ rfl)
        · unfold ThingMagicReader.turn
          rw [hstart]
          exact hheard.machine
        · have hestablished : provider.reader.established = listened.reader.established := by
            funext pump elapsed
            unfold ThingMagicReader.established
            rw [hstart, hbackoff]
          simp only [ThingMagicReader.turn, ThingMagicReader.report, hstart, hheard.pump,
            hestablished]
        · unfold ThingMagicReader.turn
          rw [hstart]
          exact hheard.anchor
        · show _ = (_, readsOf (provider.sent ++ consumer.taken _) ++ [])
          rw [taken_of_takes_all htakes, reads_of_append, List.append_nil]
          exact hdecoded
      · refine .stopped (if_neg htakes) ?_
        rw [hdecoded]
        show readsOf (provider.sent ++ consumer.taken _) <+: _
        rw [reads_of_append]
        exact (List.prefix_append_right_inj _).mpr (reads_of_front (taken_front _ _))

/-- The start of a connection beside the one that is recorded. -/
theorem beside_begin (start : Option (List Step)) (machine : Machine) {decoder : D}
    {recorder : Recorder} (h : decodeAll first recorder.frames = (decoder, sent)) :
    Beside first sent (Connection.begin start machine decoder)
      (Connection.begin start machine recorder) where
  machine := rfl
  pump := rfl
  anchor := rfl
  decoded := by
    show decodeAll first recorder.frames = (decoder, sent ++ [])
    rw [h, List.append_nil]

/-- One step keeps a provider with the recorder. -/
theorem Follows.step (h : Follows first provider listened) (hheld : listened.Held)
    (event : ProviderEvent) :
    Follows first (provider.step event) (listened.step event.patient) := by
  cases h with
  | stopped hprovider htaken =>
      have hstep : provider.step event = provider := by
        unfold Provider.step
        rw [hprovider]
      rw [hstep]
      obtain ⟨more, hmore⟩ := recorded_step hheld event.patient
      refine .stopped hprovider (htaken.trans ?_)
      rw [← hmore, decode_all_append]
      exact reads_front_foldl _ more
  | running h =>
      cases h with
      | waiting hstart hbackoff hprovider hrecorded hdecoded =>
          unfold Provider.step
          rw [hprovider, hrecorded]
          cases event with
          | notOpened reason consumer =>
              refine follows_conclude (by exact hstart) (by exact hbackoff) _ _ _ _ ?_
              exact hdecoded.trans (congrArg (Prod.mk _) (List.append_nil _).symm)
          | opened machine consumer =>
              show Follows first (provider.opened machine consumer)
                (listened.opened machine .listening)
              have hbeside := beside_begin listened.reader.start machine hdecoded
              unfold Provider.opened
              simp only
              rw [hstart, hbeside.pump]
              split
              · refine follows_conclude (by exact hstart) (by exact hbackoff) _ _ _ _ ?_
                exact hdecoded.trans (congrArg (Prod.mk _) (List.append_nil _).symm)
              · exact .running (.reading hstart hbackoff rfl rfl hbeside rfl)
          | read chunk elapsed consumer =>
              exact .running (.waiting hstart hbackoff hprovider hrecorded hdecoded)
      | reading hstart hbackoff hprovider hrecorded hbeside hreads =>
          unfold Provider.step
          rw [hprovider, hrecorded]
          cases event with
          | notOpened reason consumer =>
              exact .running (.reading hstart hbackoff hprovider hrecorded hbeside hreads)
          | opened machine consumer =>
              exact .running (.reading hstart hbackoff hprovider hrecorded hbeside hreads)
          | read chunk elapsed consumer =>
              show Follows first
                (if chunk = .interrupted then provider
                  else provider.pump _ chunk elapsed consumer)
                (if chunk = .interrupted then listened
                  else listened.pump _ chunk elapsed .listening)
              split
              · exact .running (.reading hstart hbackoff hprovider hrecorded hbeside hreads)
              · exact follows_pump hstart hbackoff hbeside chunk elapsed consumer

/-- A run keeps a provider with the recorder. -/
theorem follows_run (events : List ProviderEvent) (h : Follows first provider listened)
    (hheld : listened.Held) :
    Follows first (run Provider.step provider events)
      (run Provider.step listened (events.map ProviderEvent.patient)) ∧
      (run Provider.step listened (events.map ProviderEvent.patient)).Held := by
  induction events generalizing provider listened with
  | nil => exact ⟨h, hheld⟩
  | cons event events ih => exact ih (h.step hheld event) (held_step hheld _)

/-! ## A reader that only listens -/

/-- What is on the line of a reader that only listens: each connection has a reassembler of its
own, and ends when its port does. -/
def lineNext (line : Option Reassembler × List Response) (event : ProviderEvent) :
    Option Reassembler × List Response :=
  match line.1, event with
  | none, .opened _ _ => (some .new, line.2)
  | some reassembler, .read read _ _ =>
      let (reassembler, frames) := read.frames reassembler
      (if read.ends then none else some reassembler, line.2 ++ frames)
  | _, _ => line

/-- Every frame on the line. -/
def lineFrames (events : List ProviderEvent) : List Response :=
  (run lineNext (none, []) events).2

/-- A connection without a sequence: nothing is awaited, and no write can fail. -/
structure Listening (recorded : Connection Recorder) (reassembler : Reassembler)
    (frames : List Response) : Prop where
  starting : recorded.pump.starting = .new []
  progress : recorded.pump.progress = .waiting
  written : recorded.pump.written = true
  reassembler : recorded.pump.reassembler = reassembler
  frames : recorded.decoder.frames.map (·.1) = frames

variable {reassembler : Reassembler} {frames : List Response}

/-- Every frame is given to the decoder of a reader that only listens. -/
theorem Listening.hear (h : Listening recorded reassembler frames) (response : Response) :
    Listening (recorded.hear response) reassembler (frames ++ [response]) := by
  have hclaims : recorded.pump.starting.claims response = false := by
    rw [h.starting]
    rfl
  unfold Connection.hear Pump.hear
  simp only [hclaims, Bool.false_eq_true, if_false]
  refine ⟨h.starting, h.progress, h.written, h.reassembler, ?_⟩
  show (recorded.decoder.frames ++ [(response, recorded.anchor)]).map (·.1) = _
  rw [List.map_append, h.frames]
  rfl

/-- All frames of a read are given to it. -/
theorem Listening.heard (h : Listening recorded reassembler frames) (read : PortRead) :
    Listening (recorded.heard read) (read.frames reassembler).1
      (frames ++ (read.frames reassembler).2) := by
  have hrun : ∀ (more : List Response) {recorded : Connection Recorder} {frames : List Response},
      Listening recorded (read.frames reassembler).1 frames →
      Listening (run Connection.hear recorded more) (read.frames reassembler).1
        (frames ++ more) := by
    intro more
    induction more with
    | nil =>
        intro recorded frames h
        rw [List.append_nil]
        exact h
    | cons response more ih =>
        intro recorded frames h
        rw [List.append_cons]
        exact ih (h.hear response)
  unfold Connection.heard
  rw [h.reassembler]
  refine hrun _ ⟨h.starting, h.progress, rfl, ?_, h.frames⟩
  show (read.frames recorded.pump.reassembler).1 = _
  rw [h.reassembler]

/-- A provider that only listens, beside its line. -/
inductive OnLine (listened : Provider Recorder) (line : Option Reassembler × List Response) :
    Prop where
  | waiting (hstart : listened.reader.start = none) (hstanding : listened.standing = .waiting)
      (hline : line.1 = none) (hframes : listened.reader.decoder.frames.map (·.1) = line.2)
  | reading (hstart : listened.reader.start = none) {recorded : Connection Recorder}
      {reassembler : Reassembler} (hstanding : listened.standing = .reading recorded)
      (hline : line.1 = some reassembler) (hlistens : Listening recorded reassembler line.2)

/-- The end of an attempt of a provider that only listens. -/
theorem on_line_conclude (hstart : listened.reader.start = none)
    (hframes : listened.reader.decoder.frames.map (·.1) = frames) (established : Bool)
    (events : List ReaderEvent) (cause : Disconnection) :
    OnLine (listened.conclude established events cause .listening) (none, frames) := by
  cases established with
  | false => exact .waiting hstart rfl rfl hframes
  | true => exact .waiting hstart rfl rfl hframes

/-- One step keeps a provider beside its line. -/
theorem OnLine.step {line : Option Reassembler × List Response} (h : OnLine listened line)
    (event : ProviderEvent) :
    OnLine (listened.step event.patient) (lineNext line event) := by
  obtain ⟨current, seen⟩ := line
  cases h with
  | waiting hstart hstanding hline hframes =>
      cases hline
      unfold Provider.step
      rw [hstanding]
      cases event with
      | notOpened reason consumer =>
          show OnLine (listened.notOpened reason .listening) (none, seen)
          exact on_line_conclude (by exact hstart) (by exact hframes) _ _ _
      | opened machine consumer =>
          show OnLine (listened.opened machine .listening) (some .new, seen)
          unfold Provider.opened
          rw [hstart]
          exact .reading hstart rfl rfl ⟨rfl, rfl, rfl, rfl, hframes⟩
      | read chunk elapsed consumer => exact .waiting hstart hstanding rfl hframes
  | @reading hstart recorded reassembler hstanding hline hlistens =>
      cases hline
      unfold Provider.step
      rw [hstanding]
      cases event with
      | notOpened reason consumer => exact .reading hstart hstanding rfl hlistens
      | opened machine consumer => exact .reading hstart hstanding rfl hlistens
      | read chunk elapsed consumer =>
          show OnLine (if chunk = .interrupted then listened
            else listened.pump recorded chunk elapsed .listening)
            (lineNext (some reassembler, seen) (.read chunk elapsed consumer))
          by_cases hinterrupted : chunk = .interrupted
          · rw [if_pos hinterrupted, hinterrupted]
            refine .reading hstart hstanding rfl ?_
            show Listening recorded reassembler (seen ++ [])
            rw [List.append_nil]
            exact hlistens
          · rw [if_neg hinterrupted]
            have hheard := hlistens.heard chunk
            have hchecked : (recorded.heard chunk).checked listened.reader.start.isSome chunk =
                recorded.heard chunk := by
              rw [hstart]
              rfl
            have hended : (listened.reader.turn recorded chunk elapsed).ended =
                if chunk.ends = true then some .ended else none := by
              show Pump.cause _ _ = _
              rw [hchecked]
              unfold Pump.cause
              rw [hheard.progress]
              simp [hheard.written]
            unfold Provider.pump
            simp only
            rw [hended]
            cases hends : chunk.ends with
            | true =>
                have hline : lineNext (some reassembler, seen) (.read chunk elapsed consumer) =
                    (none, seen ++ (chunk.frames reassembler).2) := by
                  unfold lineNext
                  simp only [hends, if_true]
                rw [if_pos rfl, hline]
                refine on_line_conclude (by exact hstart) ?_ _ _ _
                show ((recorded.heard chunk).checked _ chunk).decoder.frames.map (·.1) = _
                rw [hchecked]
                exact hheard.frames
            | false =>
                have hline : lineNext (some reassembler, seen) (.read chunk elapsed consumer) =
                    (some (chunk.frames reassembler).1, seen ++ (chunk.frames reassembler).2) := by
                  unfold lineNext
                  simp only [hends, Bool.false_eq_true, if_false]
                rw [if_neg Bool.false_ne_true, hline]
                refine .reading (by exact hstart) rfl rfl ?_
                unfold ThingMagicReader.turn
                rw [hchecked]
                exact ⟨hheard.starting, hheard.progress, hheard.written, hheard.reassembler,
                  hheard.frames⟩

/-- What a reader that only listens gives its decoder is every frame on the line. -/
theorem frames_given_listening (backoff : Backoff) (events : List ProviderEvent) :
    (framesGiven backoff none events).map (·.1) = lineFrames events := by
  have hrun : ∀ (events : List ProviderEvent) {listened : Provider Recorder}
      {line : Option Reassembler × List Response}, OnLine listened line → listened.Held →
      OnLine (run Provider.step listened (events.map ProviderEvent.patient))
        (run lineNext line events) ∧
      (run Provider.step listened (events.map ProviderEvent.patient)).Held := by
    intro events
    induction events with
    | nil => exact fun h hheld => ⟨h, hheld⟩
    | cons event events ih => exact fun h hheld => ih (h.step event) (held_step hheld _)
  have hheld : (Provider.new (.new (⟨[]⟩ : Recorder) backoff none)).Held := by
    intro connection hreading
    cases hreading
  have hnew : OnLine (.new (.new (⟨[]⟩ : Recorder) backoff none)) (none, []) :=
    .waiting rfl rfl rfl rfl
  obtain ⟨hline, hheld⟩ := hrun events hnew hheld
  cases hline with
  | waiting hstart hstanding hnone hframes => exact hframes
  | reading hstart hstanding hsome hlistens =>
      unfold framesGiven
      rw [← (hheld _ hstanding).1]
      exact hlistens.frames

/-! ## The reads that are sent -/

/-- However the ports open, fail and end, whatever comes over them, with any start sequence and any
decoder: the reads that are sent are what the decoder makes of the frames it is given, in their
order and once each. None is missing while the consumer stays, and one that leaves has taken the
first of them. A reader that only listens gives its decoder every frame that reassembly found. -/
theorem reads_sent_in_order (decoder : D) (backoff : Backoff) (start : Option (List Step))
    (events : List ProviderEvent) :
    let provider := run Provider.step (.new (.new decoder backoff start)) events
    let reads := (decodeAll decoder (framesGiven backoff start events)).2
    readsOf provider.sent <+: reads ∧
      (provider.standing ≠ .stopped → readsOf provider.sent = reads) ∧
      (start = none → (framesGiven backoff start events).map (·.1) = lineFrames events) := by
  have hheld : (Provider.new (.new (⟨[]⟩ : Recorder) backoff start)).Held := by
    intro connection hreading
    cases hreading
  have hnew : Follows decoder (.new (.new decoder backoff start))
      (.new (.new (⟨[]⟩ : Recorder) backoff start)) :=
    .running (.waiting rfl rfl rfl rfl rfl)
  obtain ⟨hfollows, hheld⟩ := follows_run events hnew hheld
  -- a provider that is up has sent all that was decoded
  have hup : Abreast decoder (run Provider.step (.new (.new decoder backoff start)) events)
      (run Provider.step (.new (.new (⟨[]⟩ : Recorder) backoff start))
        (events.map ProviderEvent.patient)) →
      readsOf (run Provider.step (.new (.new decoder backoff start)) events).sent =
        (decodeAll decoder (framesGiven backoff start events)).2 := by
    intro h
    cases h with
    | waiting hstart hbackoff hprovider hrecorded hdecoded =>
        exact (congrArg Prod.snd hdecoded).symm
    | reading hstart hbackoff hprovider hrecorded hbeside hreads =>
        have hdecoded := congrArg Prod.snd hbeside.decoded
        rw [(hheld _ hrecorded).1, hreads, List.append_nil] at hdecoded
        exact hdecoded.symm
  refine ⟨?_, ?_, ?_⟩
  · cases hfollows with
    | stopped hprovider htaken => exact htaken
    | running h => exact (hup h) ▸ List.prefix_refl _
  · intro hstanding
    cases hfollows with
    | stopped hprovider htaken => exact absurd hprovider hstanding
    | running h => exact hup h
  · intro hstart
    rw [hstart]
    exact frames_given_listening backoff events

end Splitforge.Thingmagic
