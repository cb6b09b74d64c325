import Splitforge.Raceday.Batches

/-!
# What was asked and recorded

The requests of a shipper with what came of them, and what it recorded, newest first. What RaceDay
Connect holds follows from the requests that reached it: a course replaces the last one, and a
batch drops every crossing of the runners that it restates before it adds its own. The shipper only
learns the answers, and a request without one may have been taken.
-/

namespace Splitforge.Raceday

open Std (ExtTreeMap)
open Splitforge.Domain Splitforge.Library

variable {Metres : Type}

/-! ## Requests -/

/-- What RaceDay Connect is told about. -/
inductive Item where
  | course
  | runner (runner : RunnerRef)
deriving DecidableEq

/-- Whether a document says how an item is. -/
def Document.names : Document → Item → Bool
  | .manifest _, .course => true
  | .crossings batch, .runner runner => runner ∈ batch.replaces
  | _, _ => false

/-- A batch has crossings of the runners that it restates, and of nobody else. -/
def Document.Complete : Document → Prop
  | .crossings batch => ∀ crossing ∈ batch.crossings, runnerOf crossing ∈ batch.replaces
  | _ => True

/-- What came of a request: what the agent returned, and whether RaceDay Connect took it. One that
was delivered was taken, and one that was refused or not paired was not. -/
structure Exchange where
  reply : Reply
  taken : Bool
  taken_of_delivered : reply.sent.outcome = .delivered → taken = true
  not_taken : reply.sent.outcome = .refused ∨ reply.sent.outcome = .unpaired → taken = false

/-- The outcome that the shipper learns. -/
def Exchange.outcome (exchange : Exchange) : Outcome :=
  exchange.reply.sent.outcome

/-- A request under a pairing, and what came of it. -/
structure Ask where
  pairing : Pairing
  document : Document
  exchange : Exchange

/-- What happens to an item: a request, or a recording in the shipper's database. -/
inductive Entry where
  | asked (ask : Ask)
  | recorded (item : Item)

/-- Whether an entry is about an item. -/
def Entry.about : Entry → Item → Bool
  | .asked ask, item => ask.document.names item
  | .recorded other, item => other = item

/-- The newest request that names an item. -/
def newest (item : Item) : List Entry → Option Ask
  | [] => none
  | .asked ask :: older => if ask.document.names item then some ask else newest item older
  | .recorded _ :: older => newest item older

/-- The newest request that names an item was refused. -/
def lastRefused (item : Item) (ledger : List Entry) : Bool :=
  (newest item ledger).any fun ask => ask.exchange.outcome = .refused

/-- A request that names an item and was not refused, and nothing recorded of the item since. -/
def outstanding (item : Item) : List Entry → Bool
  | [] => false
  | .asked ask :: older =>
      (ask.document.names item && ask.exchange.outcome ≠ .refused) || outstanding item older
  | .recorded other :: older => if other = item then false else outstanding item older

/-! ## RaceDay Connect -/

/-- What RaceDay Connect holds for a race. -/
structure Server where
  manifest : Option String
  crossings : List Crossing

/-- Takes a document, as the contract has it. -/
def Server.take (server : Server) : Document → Server
  | .manifest json => { server with manifest := some json }
  | .crossings batch => { server with
      crossings :=
        server.crossings.filter (fun crossing => runnerOf crossing ∉ batch.replaces) ++
          batch.crossings }
  | .results _ => server

/-- The crossings held for a runner. -/
def Server.crossingsOf (server : Server) (runner : RunnerRef) : List Crossing :=
  server.crossings.filter fun crossing => runnerOf crossing = runner

/-- What RaceDay Connect holds, which held nothing before the first request. -/
def server : List Entry → Server
  | [] => ⟨none, []⟩
  | .asked ask :: older =>
      if ask.exchange.taken then (server older).take ask.document else server older
  | .recorded _ :: older => server older

theorem manifest_take {server : Server} {document : Document}
    (h : document.names .course = false) : (server.take document).manifest = server.manifest := by
  cases document with
  | manifest json => cases h
  | crossings batch => rfl
  | results revision => rfl

theorem crossings_of_take {server : Server} {document : Document} {runner : RunnerRef}
    (hcomplete : document.Complete) (h : document.names (.runner runner) = false) :
    (server.take document).crossingsOf runner = server.crossingsOf runner := by
  cases document with
  | manifest json => rfl
  | results revision => rfl
  | crossings batch =>
      have hrunner : runner ∉ batch.replaces := of_decide_eq_false h
      unfold Server.crossingsOf Server.take
      dsimp only
      have hbatch : batch.crossings.filter (fun crossing => runnerOf crossing = runner) = [] := by
        refine List.filter_eq_nil_iff.mpr fun crossing hmem heq => hrunner ?_
        rw [← of_decide_eq_true heq]
        exact hcomplete crossing hmem
      rw [List.filter_append, hbatch, List.append_nil, List.filter_filter]
      refine List.filter_congr fun crossing _ => ?_
      by_cases heq : runnerOf crossing = runner
      · rw [heq]
        simp only [hrunner, not_false_eq_true, decide_true, Bool.and_self]
      · simp only [heq, decide_false, Bool.false_and]

theorem crossings_of_take_batch {server : Server} {batch : CrossingsBatch} {runner : RunnerRef}
    (h : runner ∈ batch.replaces) :
    (server.take (.crossings batch)).crossingsOf runner =
      batch.crossings.filter fun crossing => runnerOf crossing = runner := by
  unfold Server.crossingsOf Server.take
  dsimp only
  have hnone : (server.crossings.filter fun crossing => runnerOf crossing ∉ batch.replaces).filter
      (fun crossing => runnerOf crossing = runner) = [] := by
    refine List.filter_eq_nil_iff.mpr fun crossing hmem heq => ?_
    have hother := of_decide_eq_true (List.mem_filter.mp hmem).2
    rw [of_decide_eq_true heq] at hother
    exact hother h
  rw [List.filter_append, hnone, List.nil_append]

/-- Every request was of a complete document. -/
def AllComplete (ledger : List Entry) : Prop :=
  ∀ ask, .asked ask ∈ ledger → ask.document.Complete

theorem AllComplete.older {entry : Entry} {ledger : List Entry}
    (h : AllComplete (entry :: ledger)) : AllComplete ledger :=
  fun ask hask => h ask (List.mem_cons_of_mem _ hask)

theorem newest_mem {item : Item} {ledger : List Entry} {ask : Ask}
    (h : newest item ledger = some ask) : .asked ask ∈ ledger := by
  induction ledger with
  | nil => cases h
  | cons entry older ih =>
      cases entry with
      | recorded other => exact List.mem_cons_of_mem _ (ih h)
      | asked other =>
          unfold newest at h
          split_ifs at h with hnames
          · cases h
            exact List.mem_cons_self
          · exact List.mem_cons_of_mem _ (ih h)

theorem newest_names {item : Item} {ledger : List Entry} {ask : Ask}
    (h : newest item ledger = some ask) : ask.document.names item = true := by
  induction ledger with
  | nil => cases h
  | cons entry older ih =>
      cases entry with
      | recorded other => exact ih h
      | asked other =>
          unfold newest at h
          split_ifs at h with hnames
          · cases h
            exact hnames
          · exact ih h

/-! ## Nothing about an item -/

section Frame

variable {item other : Item} {ask : Ask} {runner : RunnerRef} {entry : Entry}
variable {earlier ledger : List Entry}

theorem newest_asked : newest item (.asked ask :: ledger) =
    if ask.document.names item then some ask else newest item ledger :=
  rfl

theorem outstanding_asked : outstanding item (.asked ask :: ledger) =
    (ask.document.names item && ask.exchange.outcome ≠ .refused || outstanding item ledger) :=
  rfl

theorem outstanding_recorded : outstanding item (.recorded other :: ledger) =
    if other = item then false else outstanding item ledger :=
  rfl

theorem server_asked : server (.asked ask :: ledger) =
    if ask.exchange.taken then (server ledger).take ask.document else server ledger :=
  rfl

theorem newest_cons_of_not_about (h : entry.about item = false) :
    newest item (entry :: ledger) = newest item ledger := by
  cases entry with
  | recorded other => rfl
  | asked ask =>
      have hnames : ask.document.names item = false := h
      rw [newest_asked, hnames, if_neg Bool.false_ne_true]

theorem outstanding_cons_of_not_about (h : entry.about item = false) :
    outstanding item (entry :: ledger) = outstanding item ledger := by
  cases entry with
  | recorded other =>
      rw [outstanding_recorded, if_neg (of_decide_eq_false h)]
  | asked ask =>
      have hnames : ask.document.names item = false := h
      rw [outstanding_asked, hnames, Bool.false_and, Bool.false_or]

theorem manifest_cons_of_not_about (h : entry.about .course = false) :
    (server (entry :: ledger)).manifest = (server ledger).manifest := by
  cases entry with
  | recorded other => rfl
  | asked ask =>
      rw [server_asked]
      split_ifs with htaken
      · exact manifest_take h
      · rfl

theorem crossings_cons_of_not_about (hcomplete : AllComplete (entry :: ledger))
    (h : entry.about (.runner runner) = false) :
    (server (entry :: ledger)).crossingsOf runner = (server ledger).crossingsOf runner := by
  cases entry with
  | recorded other => rfl
  | asked ask =>
      rw [server_asked]
      split_ifs with htaken
      · exact crossings_of_take (hcomplete ask List.mem_cons_self) h
      · rfl

/-- Nothing was asked or recorded about an item since an earlier ledger. -/
inductive Kept (item : Item) (earlier : List Entry) : List Entry → Prop where
  | refl : Kept item earlier earlier
  | step {entry : Entry} {ledger : List Entry} (hentry : entry.about item = false)
      (hkept : Kept item earlier ledger) : Kept item earlier (entry :: ledger)

theorem Kept.newest (h : Kept item earlier ledger) :
    newest item ledger = newest item earlier := by
  induction h with
  | refl => rfl
  | step hentry hkept ih => rw [newest_cons_of_not_about hentry, ih]

theorem Kept.outstanding (h : Kept item earlier ledger) :
    outstanding item ledger = outstanding item earlier := by
  induction h with
  | refl => rfl
  | step hentry hkept ih => rw [outstanding_cons_of_not_about hentry, ih]

theorem Kept.manifest (h : Kept .course earlier ledger) :
    (server ledger).manifest = (server earlier).manifest := by
  induction h with
  | refl => rfl
  | step hentry hkept ih => rw [manifest_cons_of_not_about hentry, ih]

theorem Kept.crossings_of (h : Kept (.runner runner) earlier ledger)
    (hcomplete : AllComplete ledger) :
    (server ledger).crossingsOf runner = (server earlier).crossingsOf runner := by
  induction h with
  | refl => rfl
  | step hentry hkept ih =>
      rw [crossings_cons_of_not_about hcomplete hentry, ih hcomplete.older]

end Frame

/-! ## What was delivered is held -/

/-- A course that was delivered is held until another one is asked for. -/
theorem manifest_of_newest {ledger : List Entry} {ask : Ask} {json : String}
    (h : newest .course ledger = some ask) (hdocument : ask.document = .manifest json)
    (hdelivered : ask.exchange.outcome = .delivered) :
    (server ledger).manifest = some json := by
  induction ledger with
  | nil => cases h
  | cons entry older ih =>
      cases habout : entry.about .course with
      | false =>
          rw [newest_cons_of_not_about habout] at h
          rw [manifest_cons_of_not_about habout]
          exact ih h
      | true =>
          cases entry with
          | recorded other => exact ih h
          | asked other =>
              have hnames : other.document.names .course = true := habout
              rw [newest_asked, if_pos hnames] at h
              cases h
              rw [server_asked, if_pos (ask.exchange.taken_of_delivered hdelivered), hdocument]
              rfl

/-- A runner that was delivered is held as the batch says until another one names the runner. -/
theorem crossings_of_newest {ledger : List Entry} {ask : Ask} {batch : CrossingsBatch}
    {runner : RunnerRef} (hcomplete : AllComplete ledger)
    (h : newest (.runner runner) ledger = some ask) (hdocument : ask.document = .crossings batch)
    (hdelivered : ask.exchange.outcome = .delivered) :
    (server ledger).crossingsOf runner =
      batch.crossings.filter fun crossing => runnerOf crossing = runner := by
  induction ledger with
  | nil => cases h
  | cons entry older ih =>
      cases habout : entry.about (.runner runner) with
      | false =>
          rw [newest_cons_of_not_about habout] at h
          rw [crossings_cons_of_not_about hcomplete habout]
          exact ih hcomplete.older h
      | true =>
          cases entry with
          | recorded other => exact ih hcomplete.older h
          | asked other =>
              have hnames : other.document.names (.runner runner) = true := habout
              rw [newest_asked, if_pos hnames] at h
              cases h
              rw [server_asked, if_pos (ask.exchange.taken_of_delivered hdelivered), hdocument]
              rw [hdocument] at hnames
              exact crossings_of_take_batch (of_decide_eq_true hnames)

/-! ## The box -/

/-- What a recording is about. -/
def Statement.item : Statement Metres → Option Item
  | .recordManifest .. => some .course
  | .recordRunner runner _ => some (.runner runner)
  | _ => none

/-- The shipper's database, and what was asked and recorded so far. -/
structure Box (Metres : Type) where
  db : ShipDb Metres
  ledger : List Entry

/-- Executes a statement, and keeps what it recorded. -/
def Box.execute (box : Box Metres) (statement : Statement Metres) : Option (Box Metres) :=
  (box.db.execute statement).map fun db =>
    ⟨db, (statement.item.map Entry.recorded).toList ++ box.ledger⟩

/-- Does what a pass asks for. What comes of a request is chosen. -/
def Box.perform (box : Box Metres) :
    (op : Op Metres) → Exchange → Option (op.Answer × Box Metres)
  | .select query, _ => some (box.db.select query, box)
  | .execute statement, _ => (box.execute statement).map fun box => ((), box)
  | .send pairing document, exchange =>
      some (exchange.reply.sent, ⟨box.db, .asked ⟨pairing, document, exchange⟩ :: box.ledger⟩)

/-- A statement that succeeds leaves its database, and what it recorded. -/
theorem Box.of_execute {box box' : Box Metres} {statement : Statement Metres}
    {exchange : Exchange} {answer : Op.Answer (.execute statement)}
    (h : box.perform (.execute statement) exchange = some (answer, box')) :
    ∃ db, box.db.execute statement = some db ∧
      box' = ⟨db, (statement.item.map Entry.recorded).toList ++ box.ledger⟩ := by
  change (box.execute statement).map (fun box => ((), box)) = some (answer, box') at h
  unfold Box.execute at h
  cases hdb : box.db.execute statement with
  | none =>
      rw [hdb] at h
      cases h
  | some db =>
      rw [hdb] at h
      cases h
      exact ⟨db, rfl, rfl⟩

/-- Recording a revision that was not recorded yet adds it. -/
theorem ShipDb.of_record_revision {db db' : ShipDb Metres} {race : RaceId} {number : Nat}
    {outcome : RevisionOutcome} (h : db.execute (.recordRevision race number outcome) = some db') :
    db' = { db with sentRevisions := db.sentRevisions.insert (toLex (race, number)) outcome } := by
  change (if db.sentRevisions.contains (toLex (race, number)) then none else some _) = _ at h
  split_ifs at h
  cases h
  rfl

/-- What is recorded of runners once one of them is recorded. -/
theorem get_record_runner {db db' : ShipDb Metres} {runner : RunnerRef}
    {crossings : Option (List Crossing)}
    (h : db.execute (.recordRunner runner crossings) = some db') (other : RunnerRef) :
    db'.sentCrossings[other]? = if runner = other then crossings else db.sentCrossings[other]? := by
  cases h
  cases crossings with
  | none => exact get_erase db.sentCrossings runner other
  | some crossings => exact get_insert db.sentCrossings runner other crossings

end Splitforge.Raceday
