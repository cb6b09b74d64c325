import Splitforge.Engine.Recovery
import Splitforge.Simulator.Transport
import Splitforge.Storage.WriteAhead
import Splitforge.Storage.Serde
import Splitforge.Thingmagic.Provider

/-!
# `simulate`

A fixture's crossings are played by a simulated reader and taken into the journal, one read at a
time. Identifiers are minted and the storage answers as the environment of each append says.
Where nothing fails, every scripted read is stored once, as it was scripted; and whatever is
derived from the journal then credits the crossings that were planned, each of them once.
-/

namespace Splitforge.Cli

open Splitforge.Domain Splitforge.Engine Splitforge.Library Splitforge.Reader Splitforge.Simulator
open Splitforge.Storage hiding members step
open Splitforge.Thingmagic (ReaderMessage ReaderEvent)

/-! ## The reader of a scenario -/

/-- A crossing a fixture plans. -/
structure PlannedCrossing where
  chip : ChipId
  reader : ReaderId
  antenna : Option UInt16
  «at» : OffsetDateTime

/-- A fixture the testkit ships, by its crossings. -/
structure FixtureEvent where
  slug : String
  crossings : List PlannedCrossing

/-- A simulated reader, and how its reads are normalized. -/
structure ScriptedReader where
  scenario : Scenario
  ingest : Ingest
  reader : ReaderId
  plannedCrossings : Nat

/-- The scenario of some crossings. -/
def scenarioOf (reader : ReaderId) (seed : UInt64) (crossings : List PlannedCrossing) : Scenario :=
  ⟨reader, .standard, seed, crossings.map fun crossing =>
    ⟨crossing.chip, crossing.antenna, crossing.at⟩⟩

/-- `scripted_reader`: the reader of a fixture's scenario, as the race has configured it. `debug`
writes a text the way `{:?}` does. -/
def scriptedReader (debug : String → String) (fixtures : List FixtureEvent) (loaded : EventConfig)
    (slug : String) (seed : UInt64) : Except String ScriptedReader :=
  match fixtures.find? fun fixture => fixture.slug = slug with
  | none =>
      .error ("unknown scenario " ++ debug slug ++ "; known scenarios: " ++
        String.intercalate ", " (fixtures.map (·.slug)))
  | some fixture =>
      match fixture.crossings.head? with
      | none => .error "the scenario plans no crossings"
      | some first =>
          -- a reader the race does not have would write reads that derivation cannot place
          match loaded.readers.find? fun reader => reader.id = first.reader with
          | none =>
              let known := loaded.readers.map (·.id.text)
              .error ("scenario " ++ debug slug ++ " emits from reader " ++
                debug first.reader.text ++ ", which race " ++ debug loaded.config.race.name ++
                " has not configured. Configured readers: " ++
                (if known = [] then "none" else String.intercalate ", " known) ++
                ". Run `splitforge fixture load --fixture " ++ slug ++
                "`, or add the reader with `splitforge reader add`.")
          | some reader =>
              .ok ⟨scenarioOf first.reader seed fixture.crossings,
                ⟨reader.timestampTrust, defaultMaxOffsetMs⟩, first.reader,
                fixture.crossings.length⟩

/-! ## Taking the reads into the journal -/

/-- Why a simulation stopped. -/
inductive SimulateError where
  | refused (text : String)
  | panicked
  | appending (context : String) (error : JournalError)
deriving DecidableEq

/-- The loop of `into_journal` between two reads. -/
structure Drain where
  transport : Transport
  readsReceived : Nat
  readsPersisted : Nat
  firstSeq : Option Nat
  lastSeq : Option Nat
  journal : SqliteJournal
  disk : Disk

section Loop

variable (crates : Crates) (ids : Nat → RawReadId) (envs : Nat → AppendEnv) (ingest : Ingest)
  (fallback : OffsetDateTime)

/-- What `into_journal` does with a read. The read gets the next identifier, and its append
meets the next environment. -/
def Drain.read (drain : Drain) (message : ReaderMessage) :
    Except (SimulateError × Disk) Drain :=
  match drain.transport.receipt ((detectionTime message).getD fallback) with
  | none => .error (.panicked, drain.disk)
  | some (receipt, transport) =>
      let read := ingest.normalize (ids drain.readsReceived) message receipt.receivedAt
        (some receipt.monotonicNs) .gpsLocked
      match drain.journal.append crates (envs drain.readsReceived) drain.disk read with
      | (.error error, _, disk) =>
          .error (.appending ("appending read " ++ read.id.uuid.toText ++ " to the journal") error,
            disk)
      | (.ok stored, journal, disk) =>
          .ok {
            transport
            readsReceived := drain.readsReceived + 1
            readsPersisted := drain.readsPersisted + 1
            firstSeq := some (drain.firstSeq.getD stored.seq)
            lastSeq := some stored.seq
            journal
            disk }

/-- One event of the channel. Everything but a read is skipped. -/
def Drain.step (drain : Drain) : ReaderEvent → Except (SimulateError × Disk) Drain
  | .read message => drain.read crates ids envs ingest fallback message
  | _ => .ok drain

end Loop

/-- What a simulated reader sends: that it is connected, and its script. -/
def eventsOf (script : List ScriptedRead) : List ReaderEvent :=
  .connected :: script.map fun read => .read read.message

/-- `RACE_START` of the testkit: 2026-04-11 08:00:00 UTC. -/
def raceStart : OffsetDateTime := ⟨1775894400 * 10 ^ 9, by decide, by decide⟩

/-- What a simulation reports. -/
structure SimulationReport where
  scenario : String
  race : String
  reader : ReaderId
  seed : UInt64
  plannedCrossings : Nat
  readsScripted : Nat
  readsReceived : Nat
  readsPersisted : Nat
  journalTotal : Nat
  firstSeq : Option Nat
  lastSeq : Option Nat

/-- What a simulation runs with: the crates, the identifiers it mints, and what each append
meets. -/
structure Surroundings where
  crates : Crates
  debug : String → String
  fixtures : List FixtureEvent
  ids : Nat → RawReadId
  envs : Nat → AppendEnv

/-- `into_journal`: the scenario's crossings into a journal. A failure leaves what was stored
before it. -/
def intoJournal (surroundings : Surroundings) (loaded : EventConfig) (slug : String)
    (seed : UInt64) (journal : SqliteJournal) (disk : Disk) :
    Except (SimulateError × Disk) (SimulationReport × SqliteJournal × Disk) :=
  match scriptedReader surroundings.debug surroundings.fixtures loaded slug seed with
  | .error text => .error (.refused text, disk)
  | .ok scripted =>
      match scripted.scenario.script with
      | none => .error (.panicked, disk)
      | some script =>
          let drain : Drain := ⟨.new (seed ^^^ 0xA5A5A5A5A5A5A5A5), 0, 0, none, none, journal, disk⟩
          let fallback := loaded.config.gunTime.getD raceStart
          match (eventsOf script).foldlM (Drain.step surroundings.crates surroundings.ids
              surroundings.envs scripted.ingest fallback) drain with
          | .error stopped => .error stopped
          | .ok drain =>
              .ok (⟨slug, loaded.config.race.name, scripted.reader, seed,
                scripted.plannedCrossings, script.length, drain.readsReceived,
                drain.readsPersisted, drain.disk.database.rawReads.length, drain.firstSeq,
                drain.lastSeq⟩, drain.journal, drain.disk)

/-! ## Appending a read -/

/-- Where neither file fails, a storable read with a new id is appended: its row is the next. -/
theorem append_stores (crates : Crates) {journal : SqliteJournal}
    (hsidecar : journal.sidecar.isSome) {env : AppendEnv} (hwrite : env.sidecar = none) (htransaction : env.transaction = none)
    {disk : Disk} {read : RawRead} (hstorable : storable read = .ok ())
    (hfresh : read.id ∉ storedIds disk.database.rawReads) :
    ∃ stored journal' disk', journal.append crates env disk read = (.ok stored, journal', disk') ∧
      journal'.sidecar.isSome ∧ stored.seq = maxSeq disk.database.rawReads + 1 ∧
      disk'.database.rawReads =
        disk.database.rawReads ++ [rowOf crates disk.database.rawReads ⟨read, env.now⟩] := by
  obtain ⟨sidecar, hsidecar⟩ := Option.isSome_iff_exists.mp hsidecar
  have hchecked : [read].forM storable = .ok () := by
    show (storable read).bind _ = _
    rw [hstorable]
    rfl
  have hwritten : ∃ sidecar' file', sidecar.appendRecords crates env.sidecar disk.file
      ([read].map fun read => ⟨read, env.now⟩) = (.ok (), sidecar', file') := by
    rw [Sidecar.appendRecords, map_m_of_eq, hwrite]
    exact ⟨_, _, rfl⟩
  obtain ⟨sidecar', file', hwritten⟩ := hwritten
  have hinsert : insertEach crates env.now disk.database.rawReads [read] =
      .ok (disk.database.rawReads ++ [rowOf crates disk.database.rawReads ⟨read, env.now⟩],
        [⟨maxSeq disk.database.rawReads + 1, env.now, hexLower (crates.sha256 read.rawPayload),
          read⟩]) := by
    rw [insertEach, insert_one_of_storable hstorable, if_neg hfresh]
    rfl
  simp only [SqliteJournal.append, SqliteJournal.insertAll, hchecked, hsidecar, hwritten,
    SqliteJournal.commit, hinsert, htransaction]
  split_ifs with hdue
  · -- the checkpoint behind the transaction leaves the handle and the rows as they are
    generalize hcheckpoint : SqliteJournal.checkpoint env.checkpoint _ _ = checkpointed
    obtain ⟨result, journal', database'⟩ := checkpointed
    obtain ⟨hkept, _, hdatabase⟩ := checkpoint_cases hcheckpoint
    refine ⟨_, _, _, rfl, by rw [hkept]; rfl, rfl, ?_⟩
    rcases hdatabase with rfl | ⟨_, _, _, _, rfl⟩
    · rfl
    · rfl
  · exact ⟨_, _, _, rfl, rfl, rfl, rfl⟩

/-! ## What is stored -/

/-- A row keeps a scripted read, timed by its instant in whole microseconds. -/
structure Keeps (read : ScriptedRead) (row : StoredRawRead) : Prop where
  source : row.read.source = read.message.source
  antenna : row.read.antenna = read.message.antenna
  chip : row.read.chip = read.message.chip
  rssi : row.read.rssiDbm = read.message.rssiDbm
  payload : row.read.rawPayload = read.message.rawPayload
  instant : row.read.authoritativeTimestamp = wholeMicros read.at

/-- A stored read is timed by its instant in whole microseconds. -/
theorem authoritative_as_stored (read : RawRead) :
    (asStored read).authoritativeTimestamp = wholeMicros read.authoritativeTimestamp := by
  unfold asStored RawRead.authoritativeTimestamp
  cases read.timestampSource with
  | readerUtc => cases read.readerTimestamp <;> rfl
  | deviceReceipt reason => rfl

/-- A scripted read that a simulated transport can carry. -/
structure Playable (read : ScriptedRead) : Prop where
  timestamp : read.message.timestamp = .utc read.at
  roomy : Roomy read.at

section Going

variable {crates : Crates} {ids : Nat → RawReadId} {envs : Nat → AppendEnv} {ingest : Ingest}
  {fallback : OffsetDateTime} {drain : Drain} {limit : Nat}

/-- Nothing fails in the storage. -/
def Calm (envs : Nat → AppendEnv) : Prop :=
  ∀ number, (envs number).sidecar = none ∧ (envs number).transaction = none

/-- The reader's clock is believed as long as it is within the default threshold. -/
structure Believing (ingest : Ingest) : Prop where
  trust : ingest.trust ≠ .untrusted
  maxOffsetMs : ingest.maxOffsetMs = defaultMaxOffsetMs

/-- So many identifiers that are minted are different. -/
def Distinct (ids : Nat → RawReadId) (limit : Nat) : Prop :=
  ∀ first second, first < second → second < limit → ids first ≠ ids second

/-- A loop that has lost nothing so far, and has identifiers left. -/
structure Drain.Going (ids : Nat → RawReadId) (limit : Nat) (drain : Drain) : Prop where
  sidecar : drain.journal.sidecar.isSome
  transport : drain.transport.Default
  rows : WellFormed drain.disk.database.rawReads
  fresh : ∀ number, drain.readsReceived ≤ number → number < limit →
    ids number ∉ storedIds drain.disk.database.rawReads

/-- What taking some reads does: each is one more row, and is counted. -/
structure Took (ids : Nat → RawReadId) (limit : Nat) (drain : Drain) (reads : List ScriptedRead)
    (rows : List StoredRawRead) (drain' : Drain) : Prop where
  going : drain'.Going ids limit
  received : drain'.readsReceived = drain.readsReceived + reads.length
  persisted : drain'.readsPersisted = drain.readsPersisted + reads.length
  table : drain'.disk.database.rawReads = drain.disk.database.rawReads ++ rows
  keeps : List.Forall₂ Keeps reads rows
  firstSeq : drain'.firstSeq = drain.firstSeq.or (rows.head?.map (·.seq))
  lastSeq : drain'.lastSeq = (rows.getLast?.map (·.seq)).or drain.lastSeq

/-- Of a believed reader a message within the longest delay is timed by the instant it claims. -/
theorem believes_of_slowest (h : Believing ingest) {at' receivedAt : OffsetDateTime}
    (hlower : at'.nanos ≤ receivedAt.nanos) (hupper : receivedAt.nanos ≤ at'.nanos + slowest) :
    ingest.Believes at' receivedAt := by
  cases htrust : ingest.trust with
  | trusted => exact Or.inl htrust
  | untrusted => exact absurd htrust h.trust
  | auto =>
      refine Or.inr ⟨htrust, ?_⟩
      have habs := (receivedAt - at').nat_abs_whole_milliseconds
      rw [OffsetDateTime.sub_nanos] at habs
      rw [h.maxOffsetMs]
      simp only [slowest] at hupper
      simp only [magnitude, defaultMaxOffsetMs]
      omega

/-- A read that the transport can carry is taken into the journal. -/
theorem read_taken (hcalm : Calm envs) (hids : Distinct ids limit) (hingest : Believing ingest)
    (h : drain.Going ids limit) (hlimit : drain.readsReceived < limit) {read : ScriptedRead}
    (hread : Playable read)
    (hboot : ∀ boot ∈ drain.transport.boot, Counts boot.nanos read.at) :
    ∃ drain' row boot, drain.read crates ids envs ingest fallback read.message = .ok drain' ∧
      Took ids limit drain [read] [row] drain' ∧ drain'.transport.boot = some boot ∧
      (boot ∈ drain.transport.boot ∨ boot.nanos = read.at.nanos - hour) := by
  obtain ⟨receipt, transport', boot, hreceipt, hdefault, hbooted, hsince, hlower, hupper, hcount⟩ :=
    receipt_of_roomy h.transport hread.roomy hboot
  have hsent : (detectionTime read.message).getD fallback = read.at := by
    rw [detectionTime, hread.timestamp]
    rfl
  have hnormal := (authoritative_normalize ingest (ids drain.readsReceived) hread.timestamp
    (some receipt.monotonicNs) .gpsLocked).1 (believes_of_slowest hingest hlower hupper)
  have hstorable : storable (ingest.normalize (ids drain.readsReceived) read.message
      receipt.receivedAt (some receipt.monotonicNs) .gpsLocked) = .ok () := by
    refine storable_iff.mpr ⟨?_, ?_⟩
    · simp only [Ingest.normalize, claimed, hread.timestamp, Option.all_none]
    · show fitsI64 receipt.monotonicNs = true
      rw [fitsI64, i64_try_from_eq (by simp only [i64Min]; omega) hcount]
      rfl
  obtain ⟨stored, journal', disk', happend, hsidecar, hseq, hrows⟩ :=
    append_stores crates h.sidecar (hcalm drain.readsReceived).1 (hcalm drain.readsReceived).2
      hstorable (h.fresh _ le_rfl hlimit)
  simp only [Drain.read, hsent, hreceipt, happend]
  refine ⟨_, rowOf crates drain.disk.database.rawReads ⟨ingest.normalize (ids drain.readsReceived)
    read.message receipt.receivedAt (some receipt.monotonicNs) .gpsLocked,
    (envs drain.readsReceived).now⟩, boot, rfl, ?_, hbooted, hsince⟩
  refine ⟨⟨hsidecar, hdefault, ?_, fun number hnumber hminted => ?_⟩, rfl, rfl, hrows, ?_, ?_, ?_⟩
  · rw [hrows]
    exact h.rows.append_row (h.fresh _ le_rfl hlimit)
  · have hlt : drain.readsReceived < number := hnumber
    rw [hrows, stored_ids_append, stored_ids_row_of, List.mem_append, List.mem_singleton]
    intro hmem
    rcases hmem with hold | heq
    · exact h.fresh number hlt.le hminted hold
    · exact hids _ _ hlt hminted heq.symm
  · refine .cons ⟨rfl, rfl, rfl, rfl, rfl, ?_⟩ .nil
    rw [← hnormal]
    exact authoritative_as_stored _
  · cases hfirst : drain.firstSeq with
    | none => exact congrArg some hseq
    | some first => rfl
  · exact congrArg some hseq

/-- Reads taken one after another. -/
theorem Took.trans {first second third : Drain} {reads reads' : List ScriptedRead}
    {rows rows' : List StoredRawRead} (h : Took ids limit first reads rows second)
    (h' : Took ids limit second reads' rows' third) :
    Took ids limit first (reads ++ reads') (rows ++ rows') third where
  going := h'.going
  received := by rw [h'.received, h.received, List.length_append, Nat.add_assoc]
  persisted := by rw [h'.persisted, h.persisted, List.length_append, Nat.add_assoc]
  table := by rw [h'.table, h.table, List.append_assoc]
  keeps := List.rel_append h.keeps h'.keeps
  firstSeq := by
    rw [h'.firstSeq, h.firstSeq, List.head?_append]
    cases first.firstSeq <;> cases rows.head? <;> rfl
  lastSeq := by
    rw [h'.lastSeq, h.lastSeq, List.getLast?_append]
    cases rows'.getLast? <;> rfl

/-- A script the transport can carry is taken into the journal, read by read. -/
theorem script_taken (hcalm : Calm envs) (hids : Distinct ids limit)
    (hingest : Believing ingest) {script : List ScriptedRead}
    (hplayable : ∀ read ∈ script, Playable read)
    (hspread : ∀ first ∈ script, ∀ second ∈ script, Counts (first.at.nanos - hour) second.at)
    (h : drain.Going ids limit) (hlimit : drain.readsReceived + script.length ≤ limit)
    (hboot : ∀ boot ∈ drain.transport.boot, ∀ read ∈ script, Counts boot.nanos read.at) :
    ∃ drain' rows, (script.map fun read => ReaderEvent.read read.message).foldlM
        (Drain.step crates ids envs ingest fallback) drain = .ok drain' ∧
      Took ids limit drain script rows drain' := by
  induction script generalizing drain with
  | nil =>
      refine ⟨drain, [], rfl, h, rfl, rfl, (List.append_nil _).symm, .nil, ?_, rfl⟩
      cases drain.firstSeq <;> rfl
  | cons read script ih =>
      obtain ⟨drain', row, boot, hread, htook, hbooted, hsince⟩ :=
        @read_taken crates ids envs ingest fallback drain limit hcalm hids hingest h
          (by rw [List.length_cons] at hlimit; omega) read (hplayable read List.mem_cons_self)
          fun boot hmem => hboot boot hmem read List.mem_cons_self
      have hboot' : ∀ boot ∈ drain'.transport.boot, ∀ other ∈ script,
          Counts boot.nanos other.at := by
        intro other hother later hlater
        rw [hbooted] at hother
        cases hother
        rcases hsince with hold | heq
        · exact hboot boot hold later (List.mem_cons_of_mem _ hlater)
        · rw [heq]
          exact hspread read List.mem_cons_self later (List.mem_cons_of_mem _ hlater)
      obtain ⟨last, rows, hscript, hrest⟩ :=
        ih (fun other hother => hplayable other (List.mem_cons_of_mem _ hother))
          (fun first hfirst second hsecond => hspread first (List.mem_cons_of_mem _ hfirst) second
            (List.mem_cons_of_mem _ hsecond)) htook.going (by
              rw [htook.received, List.length_singleton]
              rw [List.length_cons] at hlimit
              omega) hboot'
      refine ⟨last, row :: rows, ?_, htook.trans hrest⟩
      rw [List.map_cons, List.foldlM_cons]
      show (drain.read crates ids envs ingest fallback read.message).bind _ = _
      rw [hread]
      exact hscript

end Going

end Splitforge.Cli
