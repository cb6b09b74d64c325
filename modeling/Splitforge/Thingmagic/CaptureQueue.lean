import Splitforge.Thingmagic.CaptureLines
import Mathlib.Algebra.BigOperators.Group.Finset.Basic
import Mathlib.Data.Fintype.BigOperators

/-!
# The queue of a capture

The threads that use a port record what happens on it without ever waiting: a record that finds
the queue full is dropped and counted, and the next one written says how many were. A writer thread
takes records off the queue and writes them, until a write fails. Each step of a thread is one
access to what they share, and the steps of all of them come in any order.
-/

namespace Splitforge.Thingmagic

open Splitforge.Domain Splitforge.Library

/-! ## The threads -/

/-- Where a thread is in `Capture::record`. -/
inductive Recording where
  | idle
  | passed (event : Event)
  | holding (record : Record)
  | full (record : Record)
  | disconnected
deriving DecidableEq

/-- Where the writer thread is in `write_records`. -/
inductive Writing where
  | header
  | receiving
  | writing (record : Record)
  | trying
  | flushing
  | failed
  | stopped
  | gone
deriving DecidableEq

/-- `Capture`, its queue and its writer thread, with what was recorded: the records that reached
the queue, in their order, and the events of the calls that found it not stopped. -/
structure Capture (Thread : Type) where
  capacity : Nat
  stopped : Bool
  dropped : UInt64
  queue : List Record
  threads : Thread → Recording
  writer : Writing
  written : List Record
  flushed : List Record
  taken : List Record
  calls : List Event

/-- `Capture::writing_to`. -/
def Capture.new (Thread : Type) (capacity : Nat) : Capture Thread :=
  ⟨capacity, false, 0, [], fun _ => .idle, .header, [], [], [], []⟩

/-- What a thread does next: it looks whether the capture has stopped, takes the count of dropped
records, tries to send, and settles what came of it; the writer takes its next step, and what it
writes goes through or fails. -/
inductive CaptureStep (Thread : Type) where
  | enter (thread : Thread) (event : Event)
  | take (thread : Thread) (takenAt : OffsetDateTime) (since : Nat)
  | send (thread : Thread)
  | settle (thread : Thread)
  | write (succeeds : Bool)

variable {Thread : Type} [DecidableEq Thread]

/-- A thread that has come further. -/
def Capture.moved (capture : Capture Thread) (thread : Thread) (recording : Recording) :
    Capture Thread :=
  { capture with threads := Function.update capture.threads thread recording }

/-- `Capture::record`, an access at a time. -/
def Capture.enter (capture : Capture Thread) (thread : Thread) (event : Event) : Capture Thread :=
  if capture.stopped then capture
  else { capture.moved thread (.passed event) with calls := capture.calls ++ [event] }

/-- The count is taken: what this record says was dropped before it. -/
def Capture.take (capture : Capture Thread) (thread : Thread) (event : Event)
    (takenAt : OffsetDateTime) (since : Nat) : Capture Thread :=
  { capture.moved thread (.holding ⟨takenAt, since, event, capture.dropped⟩) with dropped := 0 }

/-- `try_send`. The channel is disconnected once the writer has dropped its end. -/
def Capture.send (capture : Capture Thread) (thread : Thread) (record : Record) :
    Capture Thread :=
  if capture.writer = .gone then capture.moved thread .disconnected
  else if capture.queue.length < capture.capacity then
    { capture.moved thread .idle with
      queue := capture.queue ++ [record]
      taken := capture.taken ++ [record] }
  else capture.moved thread (.full record)

/-- A record that was dropped is counted, with those it would have said were dropped. -/
def Capture.count (capture : Capture Thread) (thread : Thread) (record : Record) :
    Capture Thread :=
  { capture.moved thread .idle with dropped := capture.dropped + (record.droppedBefore + 1) }

/-- `write_records`, a step at a time: the header, then every record as it comes, flushed when the
queue is empty. A write that fails stops the capture. -/
def Capture.write (capture : Capture Thread) (succeeds : Bool) : Capture Thread :=
  match capture.writer with
  | .header => { capture with writer := if succeeds then .receiving else .failed }
  | .receiving =>
      match capture.queue with
      | [] => capture
      | record :: queue => { capture with queue, writer := .writing record }
  | .writing record =>
      if succeeds then
        { capture with written := capture.written ++ [record], writer := .trying }
      else { capture with writer := .failed }
  | .trying =>
      match capture.queue with
      | [] => { capture with writer := .flushing }
      | record :: queue => { capture with queue, writer := .writing record }
  | .flushing =>
      if succeeds then { capture with flushed := capture.written, writer := .receiving }
      else { capture with writer := .failed }
  | .failed => { capture with stopped := true, writer := .stopped }
  | .stopped => { capture with writer := .gone }
  | .gone => capture

/-- One step of a thread. -/
def Capture.step (capture : Capture Thread) : CaptureStep Thread → Capture Thread
  | .enter thread event =>
      if capture.threads thread = .idle then capture.enter thread event else capture
  | .take thread takenAt since =>
      match capture.threads thread with
      | .passed event => capture.take thread event takenAt since
      | _ => capture
  | .send thread =>
      match capture.threads thread with
      | .holding record => capture.send thread record
      | _ => capture
  | .settle thread =>
      match capture.threads thread with
      | .full record => capture.count thread record
      | .disconnected => { capture.moved thread .idle with stopped := true }
      | _ => capture
  | .write succeeds => capture.write succeeds

/-! ## The records, first in first out -/

/-- The record in the writer's hand. -/
def Writing.inHand : Writing → List Record
  | .writing record => [record]
  | _ => []

/-- A writer no write of which has failed. -/
def Writing.IsUp (writing : Writing) : Prop :=
  writing ≠ .failed ∧ writing ≠ .stopped ∧ writing ≠ .gone

/-- What the queue keeps: records are written in the order they reached it, and none is lost unless
a write fails. -/
structure Queued (capture : Capture Thread) : Prop where
  room : capture.queue.length ≤ capture.capacity
  flushed : capture.flushed <+: capture.written
  waits : capture.writer = .header ∨ capture.writer = .receiving →
    capture.flushed = capture.written
  written : capture.written <+: capture.taken
  inOrder : capture.writer.IsUp →
    capture.written ++ capture.writer.inHand ++ capture.queue = capture.taken

omit [DecidableEq Thread] in
theorem queued_new (capacity : Nat) : Queued (Capture.new Thread capacity) :=
  ⟨Nat.zero_le _, List.prefix_refl _, fun _ => rfl, List.prefix_refl _, fun _ => rfl⟩

omit [DecidableEq Thread] in
/-- A writer that takes the next record has it in its hand. -/
theorem Queued.next {capture : Capture Thread} (h : Queued capture)
    (hempty : capture.writer.inHand = []) (hup : capture.writer.IsUp) {record : Record}
    {queue : List Record} (hqueue : capture.queue = record :: queue) :
    Queued { capture with queue, writer := .writing record } := by
  have hall := h.inOrder hup
  have hroom := h.room
  rw [hqueue] at hall hroom
  refine ⟨?_, h.flushed, fun hwaits => by simp at hwaits, h.written, fun _ => ?_⟩
  · exact (Nat.le_succ _).trans hroom
  · rw [hempty, List.append_nil] at hall
    show capture.written ++ [record] ++ queue = capture.taken
    rw [List.append_assoc]
    exact hall

omit [DecidableEq Thread] in
/-- The writer takes records off the front of the queue, and writes each behind the last. -/
theorem Queued.write {capture : Capture Thread} (h : Queued capture) (succeeds : Bool) :
    Queued (capture.write succeeds) := by
  have hdown : ∀ {writing : Writing}, ¬ writing.IsUp → ∀ stopped,
      Queued { capture with writer := writing, stopped } := by
    intro writing hdown stopped
    refine ⟨h.room, h.flushed, ?_, h.written, fun hup => absurd hup hdown⟩
    intro hwriter
    rcases hwriter with rfl | rfl
    · exact absurd (by simp [Writing.IsUp]) hdown
    · exact absurd (by simp [Writing.IsUp]) hdown
  have hfailed : Queued { capture with writer := .failed } :=
    hdown (by simp [Writing.IsUp]) capture.stopped
  have horder := h.inOrder
  unfold Capture.write
  cases hwriter : capture.writer with
  | header =>
      rw [hwriter] at horder
      cases succeeds with
      | false => exact hfailed
      | true =>
          exact ⟨h.room, h.flushed, fun _ => h.waits (.inl hwriter), h.written,
            fun _ => horder (by simp [Writing.IsUp])⟩
  | receiving =>
      cases hqueue : capture.queue with
      | nil => exact h
      | cons record queue =>
          exact h.next (by rw [hwriter]; rfl) (by rw [hwriter]; simp [Writing.IsUp]) hqueue
  | writing record =>
      rw [hwriter] at horder
      have hall := horder (by simp [Writing.IsUp])
      cases succeeds with
      | false => exact hfailed
      | true =>
          refine ⟨h.room, h.flushed.trans (List.prefix_append _ _), fun hwaits => by simp at hwaits,
            ?_, fun _ => ?_⟩
          · show capture.written ++ [record] <+: capture.taken
            rw [← hall]
            exact List.prefix_append _ _
          · show capture.written ++ [record] ++ [] ++ capture.queue = capture.taken
            rw [List.append_nil]
            exact hall
  | trying =>
      rw [hwriter] at horder
      cases hqueue : capture.queue with
      | nil =>
          rw [hqueue] at horder
          exact ⟨Nat.zero_le _, h.flushed, fun hwaits => by simp at hwaits, h.written,
            fun _ => horder (by simp [Writing.IsUp])⟩
      | cons record queue =>
          exact h.next (by rw [hwriter]; rfl) (by rw [hwriter]; simp [Writing.IsUp]) hqueue
  | flushing =>
      rw [hwriter] at horder
      cases succeeds with
      | false => exact hfailed
      | true =>
          exact ⟨h.room, List.prefix_refl _, fun _ => rfl, h.written,
            fun _ => horder (by simp [Writing.IsUp])⟩
  | failed => exact hdown (by simp [Writing.IsUp]) true
  | stopped => exact hdown (by simp [Writing.IsUp]) capture.stopped
  | gone => exact h

/-- Every step keeps the queue. -/
theorem Queued.step {capture : Capture Thread} (h : Queued capture) (step : CaptureStep Thread) :
    Queued (capture.step step) := by
  have hmoved : ∀ {capture' : Capture Thread}, capture'.queue = capture.queue →
      capture'.capacity = capture.capacity → capture'.flushed = capture.flushed →
      capture'.written = capture.written → capture'.writer = capture.writer →
      capture'.taken = capture.taken → Queued capture' := by
    intro capture' hqueue hcapacity hflushed hwritten hwriter htaken
    refine ⟨?_, ?_, ?_, ?_, ?_⟩
    · rw [hqueue, hcapacity]
      exact h.room
    · rw [hflushed, hwritten]
      exact h.flushed
    · rw [hwriter, hflushed, hwritten]
      exact h.waits
    · rw [hwritten, htaken]
      exact h.written
    · rw [hwriter, hwritten, hqueue, htaken]
      exact h.inOrder
  cases step with
  | enter thread event =>
      unfold Capture.step Capture.enter
      simp only
      split
      · split
        · exact h
        · exact hmoved rfl rfl rfl rfl rfl rfl
      · exact h
  | take thread takenAt since =>
      unfold Capture.step
      simp only
      split
      · exact hmoved rfl rfl rfl rfl rfl rfl
      · exact h
  | send thread =>
      unfold Capture.step
      simp only
      split
      · rename_i record hholding
        unfold Capture.send
        split
        · exact hmoved rfl rfl rfl rfl rfl rfl
        · split
          · rename_i hroom
            refine ⟨?_, h.flushed, h.waits, h.written.trans (List.prefix_append _ _), ?_⟩
            · show (capture.queue ++ [record]).length ≤ capture.capacity
              rw [List.length_append]
              exact hroom
            · intro hup
              show capture.written ++ capture.writer.inHand ++ (capture.queue ++ [record]) = _
              rw [← List.append_assoc, h.inOrder hup]
          · exact hmoved rfl rfl rfl rfl rfl rfl
      · exact h
  | settle thread =>
      unfold Capture.step
      simp only
      split
      · exact hmoved rfl rfl rfl rfl rfl rfl
      · exact hmoved rfl rfl rfl rfl rfl rfl
      · exact h
  | write succeeds => exact h.write succeeds

/-! ## What was dropped -/

/-- What a thread still has to account for: its record, and those it says were dropped. -/
def Recording.owed : Recording → Nat
  | .passed _ => 1
  | .holding record => record.droppedBefore.toNat + 1
  | .full record => record.droppedBefore.toNat + 1
  | _ => 0

/-- What all threads still have to account for. -/
def Capture.owed [Fintype Thread] (capture : Capture Thread) : Nat :=
  ∑ thread, (capture.threads thread).owed

/-- Whether every call is a record that reached the queue, or one that a record says was dropped, or
is still to be accounted for. -/
def Capture.Counted [Fintype Thread] (capture : Capture Thread) : Prop :=
  capture.calls.length < 2 ^ 64 → capture.writer ≠ .gone →
    capture.taken.length + droppedOf capture.taken + capture.dropped.toNat + capture.owed =
      capture.calls.length

/-- A thread that comes further owes something else, and the others owe what they owed. -/
theorem owed_moved [Fintype Thread] (capture : Capture Thread) (thread : Thread)
    (recording : Recording) :
    (capture.moved thread recording).owed + (capture.threads thread).owed =
      capture.owed + recording.owed := by
  have hothers : ∑ other ∈ Finset.univ.erase thread,
      (Function.update capture.threads thread recording other).owed =
      ∑ other ∈ Finset.univ.erase thread, (capture.threads other).owed := by
    refine Finset.sum_congr rfl fun other hother => ?_
    rw [Function.update_of_ne (Finset.ne_of_mem_erase hother)]
  have hbefore := Finset.add_sum_erase _ (fun other => (capture.threads other).owed)
    (Finset.mem_univ thread)
  have hafter := Finset.add_sum_erase _
    (fun other => (Function.update capture.threads thread recording other).owed)
    (Finset.mem_univ thread)
  simp only [hothers, Function.update_self] at hbefore hafter
  show ∑ other, (Function.update capture.threads thread recording other).owed + _ =
    ∑ other, (capture.threads other).owed + _
  omega

omit [DecidableEq Thread] in
/-- The writer leaves the threads alone, and one that is gone stays so. -/
theorem write_frame (capture : Capture Thread) (succeeds : Bool) :
    (capture.write succeeds).taken = capture.taken ∧
      (capture.write succeeds).dropped = capture.dropped ∧
      (capture.write succeeds).threads = capture.threads ∧
      (capture.write succeeds).calls = capture.calls ∧
      (capture.writer = .gone → (capture.write succeeds).writer = .gone) := by
  unfold Capture.write
  cases hwriter : capture.writer with
  | header => exact ⟨rfl, rfl, rfl, rfl, fun h => by cases h⟩
  | receiving => cases hqueue : capture.queue <;> exact ⟨rfl, rfl, rfl, rfl, fun h => by cases h⟩
  | writing record => cases succeeds <;> exact ⟨rfl, rfl, rfl, rfl, fun h => by cases h⟩
  | trying => cases hqueue : capture.queue <;> exact ⟨rfl, rfl, rfl, rfl, fun h => by cases h⟩
  | flushing => cases succeeds <;> exact ⟨rfl, rfl, rfl, rfl, fun h => by cases h⟩
  | failed => exact ⟨rfl, rfl, rfl, rfl, fun h => by cases h⟩
  | stopped => exact ⟨rfl, rfl, rfl, rfl, fun _ => rfl⟩
  | gone => exact ⟨rfl, rfl, rfl, rfl, fun _ => hwriter⟩

theorem dropped_of_concat (records : List Record) (record : Record) :
    droppedOf (records ++ [record]) = droppedOf records + record.droppedBefore.toNat := by
  simp [droppedOf]

/-- A record that was counted is one more than it says were dropped. -/
theorem to_nat_counted_record {dropped before : UInt64}
    (h : dropped.toNat + (before.toNat + 1) < 2 ^ 64) :
    (dropped + (before + 1)).toNat = dropped.toNat + (before.toNat + 1) := by
  have hone : (before + 1).toNat = before.toNat + 1 := by
    rw [UInt64.toNat_add]
    exact Nat.mod_eq_of_lt (by show before.toNat + 1 < _; omega)
  rw [UInt64.toNat_add, hone]
  exact Nat.mod_eq_of_lt h

/-- Every step keeps the count. -/
theorem counted_step [Fintype Thread] {capture : Capture Thread} (h : capture.Counted)
    (step : CaptureStep Thread) : (capture.step step).Counted := by
  cases step with
  | enter thread event =>
      unfold Capture.step Capture.enter
      simp only
      split
      · rename_i hidle
        split
        · exact h
        · intro hcalls hgone
          have hlength : (capture.calls ++ [event]).length = capture.calls.length + 1 :=
            List.length_append
          have howed := owed_moved capture thread (.passed event)
          rw [hidle] at howed
          have hfits : (capture.calls ++ [event]).length < 2 ^ 64 := hcalls
          have hbefore := h (by omega) hgone
          show _ + _ + _ + (capture.moved thread (.passed event)).owed = (_ ++ [event]).length
          rw [hlength]
          simp only [Recording.owed] at howed
          have htaken : (capture.moved thread (.passed event)).taken = capture.taken := rfl
          have hdropped : (capture.moved thread (.passed event)).dropped = capture.dropped := rfl
          rw [htaken, hdropped]
          omega
      · exact h
  | take thread takenAt since =>
      unfold Capture.step
      simp only
      split
      · rename_i event hpassed
        intro hcalls hgone
        have howed := owed_moved capture thread
          (.holding ⟨takenAt, since, event, capture.dropped⟩)
        rw [hpassed] at howed
        have hbefore := h hcalls hgone
        show capture.taken.length + droppedOf capture.taken + 0 + (capture.moved thread
          (.holding ⟨takenAt, since, event, capture.dropped⟩)).owed = capture.calls.length
        simp only [Recording.owed] at howed
        omega
      · exact h
  | send thread =>
      unfold Capture.step
      simp only
      split
      · rename_i record hholding
        unfold Capture.send
        split
        · -- a writer that is gone stays so
          rename_i hgone
          exact fun _ hnot => absurd hgone hnot
        · split
          · intro hcalls hgone
            have howed := owed_moved capture thread .idle
            rw [hholding] at howed
            have hbefore := h hcalls hgone
            show (capture.taken ++ [record]).length + droppedOf (capture.taken ++ [record]) +
              capture.dropped.toNat + (capture.moved thread .idle).owed = capture.calls.length
            rw [List.length_append, dropped_of_concat, List.length_singleton]
            simp only [Recording.owed] at howed
            omega
          · intro hcalls hgone
            have howed := owed_moved capture thread (.full record)
            rw [hholding] at howed
            have hbefore := h hcalls hgone
            show capture.taken.length + droppedOf capture.taken + capture.dropped.toNat +
              (capture.moved thread (.full record)).owed = capture.calls.length
            simp only [Recording.owed] at howed
            omega
      · exact h
  | settle thread =>
      unfold Capture.step
      simp only
      split
      · rename_i record hfull
        intro hcalls hgone
        have howed := owed_moved capture thread .idle
        rw [hfull] at howed
        have hbefore := h hcalls hgone
        have hfits : capture.dropped.toNat + (record.droppedBefore.toNat + 1) < 2 ^ 64 := by
          have hle : capture.calls.length < 2 ^ 64 := hcalls
          simp only [Recording.owed] at howed
          omega
        show capture.taken.length + droppedOf capture.taken +
          (capture.dropped + (record.droppedBefore + 1)).toNat +
          (capture.moved thread .idle).owed = capture.calls.length
        rw [to_nat_counted_record hfits]
        simp only [Recording.owed] at howed
        omega
      · rename_i hdisconnected
        intro hcalls hgone
        have howed := owed_moved capture thread .idle
        rw [hdisconnected] at howed
        have hbefore := h hcalls hgone
        show capture.taken.length + droppedOf capture.taken + capture.dropped.toNat +
          (capture.moved thread .idle).owed = capture.calls.length
        simp only [Recording.owed] at howed
        omega
      · exact h
  | write succeeds =>
      obtain ⟨htaken, hdropped, hthreads, hcalls, hgone⟩ := write_frame capture succeeds
      intro hfits hup
      show (capture.write succeeds).taken.length + droppedOf (capture.write succeeds).taken +
        (capture.write succeeds).dropped.toNat +
          ∑ thread, ((capture.write succeeds).threads thread).owed =
        (capture.write succeeds).calls.length
      rw [htaken, hdropped, hthreads, hcalls]
      exact h (hcalls ▸ hfits) fun hbefore => hup (hgone hbefore)

/-- The capacity of a queue stays what it is. -/
theorem capacity_step (capture : Capture Thread) (step : CaptureStep Thread) :
    (capture.step step).capacity = capture.capacity := by
  cases step with
  | enter thread event =>
      unfold Capture.step Capture.enter
      simp only
      split_ifs <;> rfl
  | take thread takenAt since =>
      unfold Capture.step
      simp only
      split <;> rfl
  | send thread =>
      unfold Capture.step Capture.send
      simp only
      split
      · split_ifs <;> rfl
      · rfl
  | settle thread =>
      unfold Capture.step
      simp only
      split <;> rfl
  | write succeeds =>
      unfold Capture.step Capture.write
      simp only
      split
      · rfl
      · split <;> rfl
      · split_ifs <;> rfl
      · split <;> rfl
      · split_ifs <;> rfl
      · rfl
      · rfl
      · rfl

/-- What records tell of the calls: how many were dropped before each of them, and then its own
event. -/
def told (records : List Record) : List (Option Event) :=
  records.flatMap fun record =>
    List.replicate record.droppedBefore.toNat none ++ [some record.event]

/-- What is told of some calls is true of them, call by call. -/
def Tells (told : List (Option Event)) (calls : List Event) : Prop :=
  List.Forall₂ (fun told call => told = none ∨ told = some call) told calls

/-- What a thread has still to tell. -/
def Recording.told : Recording → List (Option Event)
  | .idle => []
  | .passed event => [some event]
  | .holding record => Thingmagic.told [record]
  | .full record => List.replicate (record.droppedBefore.toNat + 1) none
  | .disconnected => []

theorem told_append (first second : List Record) :
    told (first ++ second) = told first ++ told second :=
  List.flatMap_append

theorem told_singleton (record : Record) :
    told [record] = List.replicate record.droppedBefore.toNat none ++ [some record.event] :=
  List.append_nil _

theorem Tells.concat {told : List (Option Event)} {calls : List Event} (h : Tells told calls)
    (event : Event) : Tells (told ++ [some event]) (calls ++ [event]) :=
  List.rel_append h (.cons (.inr rfl) .nil)

/-- What was told first is told of the first calls. -/
theorem Tells.first {told more : List (Option Event)} {calls : List Event}
    (h : Tells (told ++ more) calls) : ∃ first, first <+: calls ∧ Tells told first := by
  induction told generalizing calls with
  | nil => exact ⟨[], List.nil_prefix, .nil⟩
  | cons one told ih =>
      cases h with
      | cons hone hrest =>
          obtain ⟨first, hfront, hfirst⟩ := ih hrest
          exact ⟨_ :: first, (List.cons_prefix_cons).mpr ⟨rfl, hfront⟩, .cons hone hfirst⟩

/-- A call that was told of by its event can be told of as dropped. -/
theorem Tells.forget {told : List (Option Event)} {event : Event} {calls : List Event}
    (h : Tells (told ++ [some event]) calls) : Tells (told ++ [none]) calls := by
  induction told generalizing calls with
  | nil =>
      cases h with
      | cons hone hrest => exact .cons (.inl rfl) hrest
  | cons one told ih =>
      cases h with
      | cons hone hrest => exact .cons hone (ih hrest)

/-- All that a capture of one thread tells of the calls. -/
def Capture.told (capture : Capture Unit) : List (Option Event) :=
  Thingmagic.told capture.taken ++ List.replicate capture.dropped.toNat none ++
    (capture.threads ()).told

/-- What a capture of one thread keeps: it tells the truth about every call. -/
structure Capture.Truthful (capture : Capture Unit) : Prop where
  taken : ∃ first, first <+: capture.calls ∧ Tells (Thingmagic.told capture.taken) first
  held : capture.writer ≠ .gone → ∀ record,
    capture.threads () = .holding record ∨ capture.threads () = .full record → capture.dropped = 0
  all : capture.writer ≠ .gone → Tells capture.told capture.calls

/-- One that tells all of it tells the first of it. -/
theorem truthful_of_all {capture : Capture Unit}
    (hheld : ∀ record, capture.threads () = .holding record ∨ capture.threads () = .full record →
      capture.dropped = 0) (hall : Tells capture.told capture.calls) : capture.Truthful := by
  refine ⟨?_, fun _ => hheld, fun _ => hall⟩
  unfold Capture.told at hall
  rw [List.append_assoc] at hall
  exact hall.first

/-- One whose writer is gone tells no more. -/
theorem truthful_of_gone {capture capture' : Capture Unit} (h : capture.Truthful)
    (hgone : capture'.writer = .gone) (htaken : capture'.taken = capture.taken)
    (hcalls : capture.calls <+: capture'.calls) : capture'.Truthful := by
  obtain ⟨first, hfront, hfirst⟩ := h.taken
  refine ⟨⟨first, hfront.trans hcalls, ?_⟩, fun hnot => absurd hgone hnot,
    fun hnot => absurd hgone hnot⟩
  rw [htaken]
  exact hfirst

/-- Every step of the thread and of the writer keeps to the truth. -/
theorem truthful_step {capture : Capture Unit} (h : capture.Truthful) (step : CaptureStep Unit)
    (hcalls : (capture.step step).calls.length < 2 ^ 64) : (capture.step step).Truthful := by
  cases step with
  | enter thread event =>
      revert hcalls
      unfold Capture.step Capture.enter
      simp only
      split
      · rename_i hidle
        split
        · exact fun _ => h
        · intro hcalls
          by_cases hgone : capture.writer = .gone
          · exact truthful_of_gone h hgone rfl (List.prefix_append _ _)
          · refine truthful_of_all ?_ ?_
            · intro record hrecord
              rcases hrecord with hrecord | hrecord
              · cases hrecord
              · cases hrecord
            · have hall := h.all hgone
              rw [Capture.told, hidle, Recording.told, List.append_nil] at hall
              exact hall.concat event
      · exact fun _ => h
  | take thread takenAt since =>
      clear hcalls
      unfold Capture.step
      simp only
      split
      · rename_i event hpassed
        by_cases hgone : capture.writer = .gone
        · exact truthful_of_gone h hgone rfl (List.prefix_refl _)
        · refine truthful_of_all (fun _ _ => rfl) ?_
          -- what the count said is now said by the record
          have hall := h.all hgone
          rw [Capture.told, hpassed, List.append_assoc] at hall
          show Tells (Thingmagic.told capture.taken ++ [] ++ Thingmagic.told [_]) capture.calls
          rw [told_singleton, List.append_nil]
          exact hall
      · exact h
  | send thread =>
      clear hcalls
      unfold Capture.step
      simp only
      split
      · rename_i record hholding
        unfold Capture.send
        split
        · rename_i hgone
          exact truthful_of_gone h hgone rfl (List.prefix_refl _)
        · rename_i hgone
          have hzero := h.held hgone record (.inl hholding)
          have hall := h.all hgone
          rw [Capture.told, hholding, hzero, Recording.told] at hall
          split
          · refine truthful_of_all ?_ ?_
            · intro other hother
              rcases hother with hother | hother
              · cases hother
              · cases hother
            · show Tells (Thingmagic.told (capture.taken ++ [record]) ++
                List.replicate capture.dropped.toNat none ++ []) capture.calls
              rw [hzero, told_append, List.append_nil]
              have hnone : List.replicate (UInt64.toNat 0) (none : Option Event) = [] := rfl
              rw [hnone, List.append_nil] at hall ⊢
              exact hall
          · refine truthful_of_all (fun _ _ => hzero) ?_
            show Tells (Thingmagic.told capture.taken ++
              List.replicate capture.dropped.toNat none ++
                List.replicate (record.droppedBefore.toNat + 1) none) capture.calls
            rw [hzero, List.replicate_succ', ← List.append_assoc]
            rw [told_singleton, ← List.append_assoc] at hall
            exact hall.forget
      · exact h
  | settle thread =>
      revert hcalls
      unfold Capture.step
      simp only
      split
      · rename_i record hfull
        intro hcalls
        by_cases hgone : capture.writer = .gone
        · exact truthful_of_gone h hgone rfl (List.prefix_refl _)
        · have hzero := h.held hgone record (.inr hfull)
          have hall := h.all hgone
          rw [Capture.told, hfull, hzero, Recording.told] at hall
          have hlength := hall.length_eq
          have hfits : (0 : UInt64).toNat + (record.droppedBefore.toNat + 1) < 2 ^ 64 := by
            have hle : capture.calls.length < 2 ^ 64 := hcalls
            simp only [List.length_append, List.length_replicate] at hlength
            omega
          refine truthful_of_all ?_ ?_
          · intro other hother
            rcases hother with hother | hother
            · cases hother
            · cases hother
          · show Tells (Thingmagic.told capture.taken ++ List.replicate
              (capture.dropped + (record.droppedBefore + 1)).toNat none ++ []) capture.calls
            rw [hzero, to_nat_counted_record hfits, List.append_nil]
            rw [List.append_assoc, List.replicate_append_replicate] at hall
            exact hall
      · rename_i hdisconnected
        intro _
        by_cases hgone : capture.writer = .gone
        · exact truthful_of_gone h hgone rfl (List.prefix_refl _)
        · have hall := h.all hgone
          rw [Capture.told, hdisconnected] at hall
          refine truthful_of_all ?_ hall
          intro other hother
          rcases hother with hother | hother
          · cases hother
          · cases hother
      · exact fun _ => h
  | write succeeds =>
      obtain ⟨htaken, hdropped, hthreads, hcalled, hgone⟩ := write_frame capture succeeds
      obtain ⟨first, hfront, hfirst⟩ := h.taken
      refine ⟨⟨first, ?_, ?_⟩, fun hup => ?_, fun hup => ?_⟩
      · exact hcalled ▸ hfront
      · exact htaken ▸ hfirst
      · show ∀ record, (capture.write succeeds).threads () = .holding record ∨
          (capture.write succeeds).threads () = .full record →
            (capture.write succeeds).dropped = 0
        rw [hthreads, hdropped]
        exact h.held fun hbefore => hup (hgone hbefore)
      · have hall := h.all fun hbefore => hup (hgone hbefore)
        show Tells (Thingmagic.told (capture.write succeeds).taken ++
          List.replicate (capture.write succeeds).dropped.toNat none ++
            ((capture.write succeeds).threads ()).told) (capture.write succeeds).calls
        rw [htaken, hdropped, hthreads, hcalled]
        exact hall

/-! ## The file -/

/-- The first line of a capture. -/
def captureHeader (startedAt : OffsetDateTime) : List Char :=
  "# ".toList ++ ("splitforge serial capture, started ".toList ++ (timestamp startedAt ++
    (". Diagnostic, not evidence: nothing in SplitForge reads this file back".toList ++
      " (ADR-0040). `>` was sent to the module, `<` was received from it.".toList)))

/-- What a capture has in its file once it is flushed. -/
def Capture.text (capture : Capture Unit) (startedAt : OffsetDateTime) : List Char :=
  captureHeader startedAt ++ '\n' :: capture.flushed.flatMap line

/-- A capture that has nothing left to do. -/
structure Capture.Quiet (capture : Capture Unit) : Prop where
  writer : capture.writer = .receiving
  queue : capture.queue = []
  thread : capture.threads () = .idle

theorem unbroken_header (startedAt : OffsetDateTime) : Unbroken (captureHeader startedAt) := by
  have htime : Unbroken (timestamp startedAt) :=
    unbroken_of_marks (fun c => mem_timestamp) (unbroken_of_all (by decide))
  refine (unbroken_of_all (by decide)).append ((unbroken_of_all (by decide)).append
    (htime.append ((unbroken_of_all (by decide)).append (unbroken_of_all (by decide)))))

/-- The header is a comment that counts nothing. -/
theorem line_header {Session : Type} (serve : Session → Nat → Handling → Session)
    (replayer : LineReplayer Session) (startedAt : OffsetDateTime) :
    replayer.line serve (captureHeader startedAt) = replayer := by
  have hsplit : splitAtText " record(s) dropped".toList
      ("splitforge serial capture, started ".toList ++ (timestamp startedAt ++
        (". Diagnostic, not evidence: nothing in SplitForge reads this file back".toList ++
          " (ADR-0040). `>` was sent to the module, `<` was received from it.".toList))) =
        none := by
    refine split_at_text_eq_none fun hinside => ?_
    have htime : ∀ c ∈ timestamp startedAt, c ∉ " record(s) dropped".toList := by
      intro c hmem hpattern
      have hall : (" record(s) dropped".toList.all fun c =>
          !c.isDigit && !"-T:.Z".toList.contains c) = true := rfl
      have hc := List.all_eq_true.mp hall c hpattern
      simp only [Bool.and_eq_true, Bool.not_eq_true', List.contains_eq_mem,
        decide_eq_false_iff_not] at hc
      rcases mem_timestamp hmem with hdigit | hmark
      · rw [hc.1] at hdigit
        cases hdigit
      · exact hc.2 hmark
    have hsome : timestamp startedAt ≠ [] := by
      unfold timestamp
      simp
    rcases infix_around htime hsome hinside with hbefore | hbehind
    · revert hbefore
      decide
    · revert hbehind
      decide +kernel
  have hfront : "# ".toList.isPrefixOf? (captureHeader startedAt) = some _ :=
    strip_front_append _ _
  have hnil : captureHeader startedAt ≠ [] := by
    unfold captureHeader
    simp
  unfold LineReplayer.line
  rw [if_neg hnil, hfront]
  dsimp only
  rw [hsplit]

/-- Reading the file of a capture back is reading its records. -/
theorem replay_text_capture {Session : Type} (serve : Session → Nat → Handling → Session)
    (start : Session) (capture : Capture Unit) (startedAt : OffsetDateTime) :
    replayText serve start (capture.text startedAt) =
      replayText serve start (capture.flushed.flatMap line) := by
  have hbreak : '\n' ∉ captureHeader startedAt :=
    fun hmem => (unbroken_header startedAt _ hmem).1 rfl
  have hlines : inputLines (capture.text startedAt) =
      captureHeader startedAt :: inputLines (capture.flushed.flatMap line) := by
    unfold inputLines Capture.text
    rw [lines_cons_line hbreak]
    dsimp only
    rw [List.map_cons, strip_return_of_unbroken (unbroken_header startedAt)]
    rfl
  unfold replayText
  rw [hlines, List.foldl_cons, line_header]

/-- A step only adds calls. -/
theorem calls_grow (capture : Capture Thread) (step : CaptureStep Thread) :
    capture.calls <+: (capture.step step).calls := by
  cases step with
  | enter thread event =>
      unfold Capture.step Capture.enter
      simp only
      split_ifs
      · exact List.prefix_refl _
      · exact List.prefix_append _ _
      · exact List.prefix_refl _
  | take thread takenAt since =>
      unfold Capture.step
      simp only
      split <;> exact List.prefix_refl _
  | send thread =>
      unfold Capture.step Capture.send
      simp only
      split
      · split_ifs <;> exact List.prefix_refl _
      · exact List.prefix_refl _
  | settle thread =>
      unfold Capture.step
      simp only
      split <;> exact List.prefix_refl _
  | write succeeds =>
      obtain ⟨-, -, -, hcalls, -⟩ := write_frame capture succeeds
      exact hcalls ▸ List.prefix_refl _

/-- Calls that are told of by an event each are told of by those events. -/
theorem events_of_tells {records : List Record} {calls : List Event}
    (hdropped : droppedOf records = 0) (h : Tells (told records) calls) :
    records.map Record.event = calls := by
  have hevents : ∀ records : List Record, droppedOf records = 0 →
      told records = records.map fun record => some record.event := by
    intro records
    induction records with
    | nil => exact fun _ => rfl
    | cons record records ih =>
        intro hdropped
        unfold droppedOf at hdropped ih
        rw [List.map_cons, List.sum_cons] at hdropped
        rw [told, List.flatMap_cons, show record.droppedBefore.toNat = 0 by omega]
        exact congrArg (some record.event :: ·) (ih (by omega))
  rw [hevents records hdropped] at h
  clear hdropped
  induction records generalizing calls with
  | nil =>
      cases h
      rfl
  | cons record records ih =>
      cases h with
      | cons hone hrest =>
          rcases hone with hone | hone
          · cases hone
          · cases hone
            rw [List.map_cons, ih hrest]

theorem length_told (records : List Record) :
    (told records).length = records.length + droppedOf records := by
  induction records with
  | nil => rfl
  | cons record records ih =>
      unfold told droppedOf at *
      simp only [List.flatMap_cons, List.length_append, List.length_replicate, List.length_cons,
        List.length_nil, List.map_cons, List.sum_cons]
      omega

/-- One thread records three events through a queue of one record, and the second is dropped. -/
def droppingSteps : List (CaptureStep Unit) :=
  [.enter () .opened, .take () (second 1) 0, .send (), .enter () (.received [255]),
    .take () (second 1) 2000, .send (), .settle (), .write true, .write true, .write true,
    .write true, .write true, .enter () .close, .take () (second 2) 3000000, .send (),
    .write true, .write true, .write true, .write true]

example : told (run Capture.step (.new Unit 1) droppingSteps).flushed =
    [some .opened, none, some .close] := by decide

end Splitforge.Thingmagic
