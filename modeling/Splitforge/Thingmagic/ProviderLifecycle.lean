import Splitforge.Thingmagic.ProviderReads
import Mathlib.Data.List.Chain

/-!
# What a provider says about itself

Beside its reads a provider reports its connections and the totals of what it could not read. The
totals only rise, and the last one sent is the one in force. A connection is announced once, and
its end is reported before the next; how long the provider waits behind each end follows from what
it reported.
-/

namespace Splitforge.Thingmagic

open Splitforge.Domain Splitforge.Library

/-! ## The totals of faults -/

/-- Totals are compared count by count. -/
instance : PartialOrder ReaderFaults :=
  PartialOrder.lift (fun faults => (faults.framing, faults.decoding)) (by
    intro faults other h
    cases faults
    cases other
    exact ReaderFaults.mk.injEq .. ▸ Prod.mk.inj h)

/-- The totals among events. -/
def faultsOf (events : List ReaderEvent) : List ReaderFaults :=
  events.filterMap fun event => match event with
    | .faults faults => some faults
    | _ => none

variable {D : Type} [TagReportDecoder D]

/-- What could not be read so far: on the connections that ended and on this one, and by the
decoder. -/
def Provider.faults (provider : Provider D) : ReaderFaults :=
  match provider.standing with
  | .reading connection =>
      ⟨provider.reader.framingBefore + connection.pump.reassembler.stats.errors,
        TagReportDecoder.faults provider.reader.decoder⟩
  | _ => ⟨provider.reader.framingBefore, TagReportDecoder.faults provider.reader.decoder⟩

theorem faults_of_append (first second : List ReaderEvent) :
    faultsOf (first ++ second) = faultsOf first ++ faultsOf second :=
  List.filterMap_append

/-- Reassembly only counts more. -/
theorem errors_le_frames (read : PortRead) (reassembler : Reassembler) :
    reassembler.stats.errors ≤ (read.frames reassembler).1.stats.errors := by
  have hscan : ∀ (incomplete : Incomplete) (reassembler : Reassembler),
      reassembler.stats.errors ≤ (reassembler.scan incomplete).1.stats.errors := by
    intro incomplete reassembler
    unfold Reassembler.scan Stats.add Stats.errors
    simp only
    omega
  cases read with
  | bytes chunk => exact hscan .wait ⟨reassembler.buffer ++ chunk, reassembler.stats⟩
  | closed => exact hscan .giveUp reassembler
  | timedOut => exact hscan .giveUp reassembler
  | interrupted => exact Nat.le_refl _
  | failed => exact hscan .giveUp reassembler

/-- Neither a frame nor the deadline touches the reassembler. -/
theorem reassembler_heard (connection : Connection D) (starts : Bool) (read : PortRead) :
    ((connection.heard read).checked starts read).pump.reassembler =
      (read.frames connection.pump.reassembler).1 := by
  have hhear : ∀ (connection : Connection D) (response : Response),
      (connection.hear response).pump.reassembler = connection.pump.reassembler := by
    intro connection response
    unfold Connection.hear Pump.hear
    by_cases hclaims : connection.pump.starting.claims response = true
    · simp only [hclaims, if_true]
      rfl
    · simp only [hclaims]
      rfl
  have hrun : ∀ (frames : List Response) (connection : Connection D),
      (run Connection.hear connection frames).pump.reassembler = connection.pump.reassembler := by
    intro frames
    induction frames with
    | nil => exact fun connection => rfl
    | cons response frames ih =>
        exact fun connection => (ih (connection.hear response)).trans (hhear connection response)
  have hheard : (connection.heard read).pump.reassembler =
      (read.frames connection.pump.reassembler).1 :=
    hrun _ { connection with pump := connection.pump.opened read }
  cases starts with
  | false => exact hheard
  | true =>
      refine Eq.trans ?_ hheard
      show (Pump.checkDeadline _ (connection.heard read).pump read.ends).reassembler = _
      unfold Pump.checkDeadline
      split <;> rfl

/-- The totals of a decoder only rise. -/
theorem totals_heard [Totals D] (connection : Connection D) (starts : Bool) (read : PortRead) :
    TagReportDecoder.faults connection.decoder ≤
        TagReportDecoder.faults ((connection.heard read).checked starts read).decoder ∧
      TagReportDecoder.heard connection.decoder ≤
        TagReportDecoder.heard ((connection.heard read).checked starts read).decoder := by
  have hhear : ∀ (connection : Connection D) (response : Response),
      TagReportDecoder.faults connection.decoder ≤
          TagReportDecoder.faults (connection.hear response).decoder ∧
        TagReportDecoder.heard connection.decoder ≤
          TagReportDecoder.heard (connection.hear response).decoder := by
    intro connection response
    unfold Connection.hear
    by_cases hclaims : connection.pump.starting.claims response = true
    · simp only [hclaims, if_true]
      exact ⟨Nat.le_refl _, Nat.le_refl _⟩
    · simp only [hclaims]
      exact ⟨Totals.faults_le _ _ _, Totals.heard_le _ _ _⟩
  have hrun : ∀ (frames : List Response) (connection : Connection D),
      TagReportDecoder.faults connection.decoder ≤
          TagReportDecoder.faults (run Connection.hear connection frames).decoder ∧
        TagReportDecoder.heard connection.decoder ≤
          TagReportDecoder.heard (run Connection.hear connection frames).decoder := by
    intro frames
    induction frames with
    | nil => exact fun connection => ⟨Nat.le_refl _, Nat.le_refl _⟩
    | cons response frames ih =>
        intro connection
        have hfirst := hhear connection response
        have hrest := ih (connection.hear response)
        exact ⟨hfirst.1.trans hrest.1, hfirst.2.trans hrest.2⟩
  have hheard := hrun (read.frames connection.pump.reassembler).2
    { connection with pump := connection.pump.opened read }
  cases starts with
  | false => exact hheard
  | true => exact hheard

/-- The totals a reader reports: each is above the one before, starting from none. -/
structure Rising (events : List ReaderEvent) (reported : ReaderFaults) : Prop where
  chain : (⟨0, 0⟩ :: faultsOf events).IsChain (· < ·)
  last : (⟨0, 0⟩ :: faultsOf events).getLast? = some reported

omit [TagReportDecoder D] in
/-- Totals that are not below the last ones are reported when they are others. -/
theorem Rising.report {events : List ReaderEvent} {reader : ThingMagicReader D}
    (h : Rising events reader.faultsReported) {faults : ReaderFaults}
    (hle : reader.faultsReported ≤ faults) {more : List ReaderEvent}
    (hmore : faultsOf more = faultsOf (reader.reportFaults faults)) :
    Rising (events ++ more) faults := by
  rw [ThingMagicReader.reportFaults] at hmore
  by_cases hsame : faults = reader.faultsReported
  · rw [if_pos hsame] at hmore
    have hnone : faultsOf (events ++ more) = faultsOf events := by
      rw [faults_of_append, hmore]
      exact List.append_nil _
    refine ⟨?_, ?_⟩
    · rw [hnone]
      exact h.chain
    · rw [hnone, hsame]
      exact h.last
  · rw [if_neg hsame] at hmore
    have hone : faultsOf (events ++ more) = faultsOf events ++ [faults] := by
      rw [faults_of_append, hmore]
      rfl
    refine ⟨?_, ?_⟩
    · rw [hone, ← List.cons_append]
      refine h.chain.append (List.isChain_singleton _) fun last hlast next hnext => ?_
      rw [h.last] at hlast
      cases hlast
      cases hnext
      exact lt_of_le_of_ne hle (Ne.symm hsame)
    · rw [hone, ← List.cons_append, List.getLast?_concat]

/-- The totals among the events of a turn. -/
theorem faults_of_report (reader : ThingMagicReader D) (connection : Connection D)
    (read : PortRead) (elapsed : Nat) :
    faultsOf (reader.report connection read elapsed).events =
      faultsOf (reader.reportFaults
        (reader.report connection read elapsed).reader.faultsReported) := by
  have hconnected : faultsOf (if !connection.pump.announced &&
      reader.established connection.pump elapsed then [.connected] else []) = [] := by
    split <;> rfl
  have hpower : faultsOf (connection.pump.power.map fun report =>
      .transmitPower report.transmitPower).toList = [] := by
    cases connection.pump.power <;> rfl
  have hreads : faultsOf (connection.reads.map .read) = [] := by
    simp [faultsOf, List.filterMap_map]
  have halive : faultsOf (if reader.heardReported < TagReportDecoder.heard connection.decoder
      then [.alive] else []) = [] := by
    split <;> rfl
  unfold ThingMagicReader.report
  simp only [faults_of_append, hconnected, hpower, hreads, halive, List.append_nil,
    List.nil_append]

/-- What a provider that is up has reported of its totals: those in force were the last, and of the
frames without a read that it knows of, it said so. -/
structure Reported (provider : Provider D) : Prop where
  held : provider.Held
  rising : Rising provider.sent provider.reader.faultsReported
  current : provider.reader.faultsReported = provider.faults
  heard : provider.reader.heardReported = TagReportDecoder.heard provider.reader.decoder
  alive : .alive ∈ provider.sent ↔ 0 < provider.reader.heardReported

/-- A provider is up and has reported all it knows, or has stopped behind totals that rose. -/
inductive Accounts (provider : Provider D) : Prop where
  | up (hup : provider.standing ≠ .stopped) (h : Reported provider)
  | stopped (hstopped : provider.standing = .stopped)
      (hchain : (⟨0, 0⟩ :: faultsOf provider.sent).IsChain (· < ·))

/-- A consumer that leaves has taken totals that rose. -/
theorem chain_taken {sent events : List ReaderEvent} {reported : ReaderFaults}
    (h : Rising (sent ++ events) reported) (consumer : Consumer) :
    (⟨0, 0⟩ :: faultsOf (sent ++ consumer.taken events)).IsChain (· < ·) := by
  refine h.chain.prefix ?_
  rw [faults_of_append, faults_of_append, ← List.cons_append, ← List.cons_append]
  exact (List.prefix_append_right_inj _).mpr ((taken_front consumer events).filterMap _)

/-- The end of an attempt, whose last events said all there is to say. -/
theorem accounts_conclude {provider : Provider D} (established : Bool)
    {events : List ReaderEvent} (cause : Disconnection) (consumer : Consumer)
    (hrising : Rising (provider.sent ++ events) provider.reader.faultsReported)
    (hcurrent : provider.reader.faultsReported =
      ⟨provider.reader.framingBefore, TagReportDecoder.faults provider.reader.decoder⟩)
    (hheard : provider.reader.heardReported = TagReportDecoder.heard provider.reader.decoder)
    (halive : .alive ∈ provider.sent ++ events ↔ 0 < provider.reader.heardReported) :
    Accounts (provider.conclude established events cause consumer) := by
  have hmore : faultsOf (provider.sent ++ (events ++ [.disconnected cause])) =
      faultsOf (provider.sent ++ events) := by
    rw [← List.append_assoc, faults_of_append]
    exact List.append_nil _
  have hrising' : Rising (provider.sent ++ (events ++ [.disconnected cause]))
      provider.reader.faultsReported :=
    ⟨hmore ▸ hrising.chain, hmore ▸ hrising.last⟩
  rcases conclude_cases provider established events cause consumer with
    ⟨hwaits, hsent, -⟩ | ⟨hstops, -⟩
  · have hup : (provider.conclude established events cause consumer).standing ≠ .stopped := by
      rw [hwaits]
      intro h
      cases h
    refine .up hup ⟨held_conclude _ _ _ _ _, ?_, ?_, ?_, ?_⟩
    · rw [hsent]
      cases established <;> exact hrising'
    · rw [Provider.faults, hwaits]
      cases established <;> exact hcurrent
    · cases established <;> exact hheard
    · have hnot : ReaderEvent.alive ∉ [ReaderEvent.disconnected cause] := by simp
      rw [hsent, ← List.append_assoc, List.mem_append]
      cases established <;> exact (or_iff_left hnot).trans halive
  · exact .stopped hstops (chain_taken hrising' consumer)

/-- A turn says that the reader was heard when it heard more. -/
theorem alive_of_report (reader : ThingMagicReader D) (connection : Connection D)
    (read : PortRead) (elapsed : Nat) :
    .alive ∈ (reader.report connection read elapsed).events ↔
      reader.heardReported < TagReportDecoder.heard connection.decoder := by
  have hconnected : .alive ∉ (if !connection.pump.announced &&
      reader.established connection.pump elapsed then [ReaderEvent.connected] else []) := by
    split <;> simp
  have hfaults : ∀ faults : ReaderFaults, .alive ∉ reader.reportFaults faults := by
    intro faults
    unfold ThingMagicReader.reportFaults
    split <;> simp
  unfold ThingMagicReader.report
  simp only [List.mem_append, hconnected, hfaults, or_false, false_or]
  constructor
  · intro h
    rcases h with (hpower | hread) | halive
    · obtain ⟨power, -, hpower⟩ := Option.map_eq_some_iff.mp (Option.mem_toList.mp hpower)
      cases hpower
    · obtain ⟨message, -, hmessage⟩ := List.mem_map.mp hread
      cases hmessage
    · by_contra hnot
      rw [if_neg hnot] at halive
      cases halive
  · intro h
    rw [if_pos h]
    exact .inr List.mem_cons_self

/-- A turn says all that it made the totals. -/
theorem accounts_pump [Totals D] {provider : Provider D} (h : Reported provider)
    {connection : Connection D} (hreading : provider.standing = .reading connection)
    (read : PortRead) (elapsed : Nat) (consumer : Consumer) :
    Accounts (provider.pump connection read elapsed consumer) := by
  obtain ⟨hdecoder, hreads⟩ := h.held connection hreading
  have hframing := errors_le_frames read connection.pump.reassembler
  rw [← reassembler_heard connection provider.reader.start.isSome read] at hframing
  obtain ⟨hfaults, hheard⟩ := totals_heard connection provider.reader.start.isSome read
  rw [hdecoder] at hfaults hheard
  have hcurrent : provider.reader.faultsReported =
      ⟨provider.reader.framingBefore + connection.pump.reassembler.stats.errors,
        TagReportDecoder.faults provider.reader.decoder⟩ := by
    rw [h.current, Provider.faults, hreading]
  have hrising : Rising
      (provider.sent ++ (provider.reader.turn connection read elapsed).events)
      (provider.reader.turn connection read elapsed).reader.faultsReported := by
    refine h.rising.report ?_ (faults_of_report _ _ _ _)
    rw [hcurrent]
    exact ⟨Nat.add_le_add_left hframing _, hfaults⟩
  have hheard' : (provider.reader.turn connection read elapsed).reader.heardReported =
      TagReportDecoder.heard (provider.reader.turn connection read elapsed).reader.decoder := by
    show (if provider.reader.heardReported < _ then _ else provider.reader.heardReported) = _
    split
    · rfl
    · rename_i hnot
      rw [h.heard] at hnot ⊢
      exact Nat.le_antisymm hheard (Nat.not_lt.mp hnot)
  have halive : .alive ∈ provider.sent ++ (provider.reader.turn connection read elapsed).events ↔
      0 < (provider.reader.turn connection read elapsed).reader.heardReported := by
    have hevents : .alive ∈ (provider.reader.turn connection read elapsed).events ↔ _ :=
      alive_of_report _ _ _ _
    have hknown := h.heard
    have hafter : (provider.reader.turn connection read elapsed).reader.decoder =
        ((connection.heard read).checked provider.reader.start.isSome read).decoder := rfl
    rw [hheard', List.mem_append, h.alive, hevents, hafter]
    omega
  unfold Provider.pump
  simp only
  cases hended : (provider.reader.turn connection read elapsed).ended with
  | some cause =>
      have hbefore : (provider.reader.turn connection read elapsed).reader.framingBefore =
          (provider.reader.turn connection read elapsed).reader.faultsReported.framing :=
        if_pos (Option.isSome_of_eq_some hended)
      refine accounts_conclude _ cause consumer hrising ?_ hheard' halive
      rw [hbefore]
      rfl
  | none =>
      by_cases htakes :
          consumer.takesAll (provider.reader.turn connection read elapsed).events = true
      · have hbefore : (provider.reader.turn connection read elapsed).reader.framingBefore =
            provider.reader.framingBefore :=
          if_neg fun hsome => Option.not_isSome_iff_eq_none.mpr hended hsome
        refine .up ?_ ⟨?_, ?_, ?_, hheard', ?_⟩
        · rw [if_pos htakes]
          intro h
          cases h
        · intro next hnext
          rw [show _ = Standing.reading _ from if_pos htakes] at hnext
          cases hnext
          exact ⟨rfl, rfl⟩
        · rw [taken_of_takes_all htakes]
          exact hrising
        · rw [Provider.faults]
          simp only [if_pos htakes]
          rw [hbefore]
          rfl
        · rw [taken_of_takes_all htakes]
          exact halive
      · exact .stopped (if_neg htakes) (chain_taken hrising consumer)

/-- Every step keeps the account. -/
theorem accounts_step [Totals D] {provider : Provider D} (h : Accounts provider)
    (event : ProviderEvent) : Accounts (provider.step event) := by
  cases h with
  | stopped hstopped hchain =>
      have hstep : provider.step event = provider := by
        unfold Provider.step
        rw [hstopped]
      rw [hstep]
      exact .stopped hstopped hchain
  | up hup h =>
      have hsame : Accounts provider := .up hup h
      have hwaiting : provider.standing = .waiting → provider.reader.faultsReported =
          ⟨provider.reader.framingBefore, TagReportDecoder.faults provider.reader.decoder⟩ := by
        intro hstanding
        rw [h.current, Provider.faults, hstanding]
      have hconclude : ∀ {waited : Provider D}, waited.reader.faultsReported =
            provider.reader.faultsReported → waited.reader.framingBefore =
            provider.reader.framingBefore → waited.reader.decoder = provider.reader.decoder →
          waited.reader.heardReported = provider.reader.heardReported →
          waited.sent = provider.sent → provider.standing = .waiting →
          ∀ cause consumer, Accounts (waited.conclude false [] cause consumer) := by
        intro waited hfaults hbefore hdecoder hheard hsent hstanding cause consumer
        refine accounts_conclude false cause consumer ?_ ?_ ?_ ?_
        · rw [hsent, hfaults, List.append_nil]
          exact h.rising
        · rw [hfaults, hbefore, hdecoder]
          exact hwaiting hstanding
        · rw [hheard, hdecoder]
          exact h.heard
        · rw [hsent, hheard, List.append_nil]
          exact h.alive
      unfold Provider.step
      split
      · rename_i reason consumer hstanding
        exact hconclude (by rfl) (by rfl) (by rfl) (by rfl) (by rfl) hstanding _ _
      · rename_i machine consumer hstanding
        unfold Provider.opened
        simp only
        split
        · exact hconclude (by rfl) (by rfl) (by rfl) (by rfl) (by rfl) hstanding _ _
        · refine .up (fun h => by cases h) ⟨?_, h.rising, ?_, h.heard, h.alive⟩
          · intro connection hreading
            cases hreading
            exact ⟨rfl, rfl⟩
          · -- a new connection has counted nothing
            refine (hwaiting hstanding).trans ?_
            rw [Provider.faults]
            unfold Connection.begin
            cases provider.reader.start with
            | none => rfl
            | some sequence =>
                show _ = ReaderFaults.mk (_ + Stats.errors (Pump.reassembler _).stats) _
                unfold Pump.begin
                simp only
                split <;> rfl
      · rename_i connection read elapsed consumer hreading
        split
        · exact hsame
        · exact accounts_pump h hreading read elapsed consumer
      · exact hsame

end Splitforge.Thingmagic
