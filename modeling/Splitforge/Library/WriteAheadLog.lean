import Mathlib.Data.List.Basic
import Mathlib.Logic.Relation

/-!
# Write-ahead logs with marks

An entry is written to a log before it goes into a table. A mark claims that the log up to some
entry and the table as it stood agree, so that recovery may start behind it. The appender
remembers the log up to its own last write, and whether it has entries in the log that it has not
seen reach the table. A guarded move clears that memory, or starts an appender, only when every
key in the log is in the table; then every mark stays true. Only entries that are offered are
new in the log.
-/

namespace Splitforge.Library

/-- The part of a log that a mark covers, and the table when it was recorded. -/
structure Mark (Entry : Type) where
  covered : List Entry
  stored : List Entry

/-- What an appender remembers. -/
structure Appender (Entry : Type) where
  tip : Option (List Entry)
  unconfirmed : Bool

/-- A log, the table behind it, the marks recorded, and the appender, if one is running. -/
structure Wal (Entry : Type) where
  log : List Entry
  table : List Entry
  marks : List (Mark Entry)
  appender : Option (Appender Entry)

variable {Entry Key : Type} (key : Entry → Key) (guarded : Prop) (offers : Entry → Prop)

/-- Every key of the log is in the table. -/
def Wal.Confirmed (wal : Wal Entry) : Prop :=
  ∀ entry ∈ wal.log, key entry ∈ wal.table.map key

/-- One move of a log, its table and its appender. -/
inductive Wal.Move (wal : Wal Entry) : Wal Entry → Prop where
  | write (appender : Appender Entry) (entries : List Entry)
      (happender : wal.appender = some appender) (hoffers : ∀ entry ∈ entries, offers entry) :
      Move wal { wal with
        log := wal.log ++ entries
        appender := some { appender with unconfirmed := true } }
  | complete (appender : Appender Entry) (entries : List Entry)
      (happender : wal.appender = some appender) (hoffers : ∀ entry ∈ entries, offers entry) :
      Move wal { wal with
        log := wal.log ++ entries
        appender := some ⟨some (wal.log ++ entries), true⟩ }
  | backfill (entries : List Entry) (happender : wal.appender = none)
      (htable : ∀ entry ∈ entries, entry ∈ wal.table) :
      Move wal { wal with log := wal.log ++ entries }
  | insert (entries : List Entry) (hlog : ∀ entry ∈ entries, entry ∈ wal.log)
      (htip : ∀ appender tip, wal.appender = some appender → appender.tip = some tip →
        ∀ entry ∈ entries, entry ∈ tip) :
      Move wal { wal with table := wal.table ++ entries }
  | confirm (appender : Appender Entry)
      (happender : wal.appender = some appender) (hguard : guarded → wal.Confirmed key) :
      Move wal { wal with appender := some { appender with unconfirmed := false } }
  | mark (appender : Appender Entry) (tip : List Entry)
      (happender : wal.appender = some appender) (hunconfirmed : appender.unconfirmed = false)
      (htip : appender.tip = some tip) :
      Move wal { wal with marks := wal.marks ++ [⟨tip, wal.table⟩] }
  | stop : Move wal { wal with appender := none }
  | start (tip : Option (List Entry)) (happender : wal.appender = none)
      (htip : ∀ entries, tip = some entries → entries = wal.log)
      (hguard : guarded → wal.Confirmed key) :
      Move wal { wal with appender := some ⟨tip, false⟩ }

/-- Any number of moves. -/
abbrev Wal.Moves : Wal Entry → Wal Entry → Prop :=
  Relation.ReflTransGen (Wal.Move key guarded offers)

/-- The log is ahead of the table, and the appender's part of it is too. -/
structure Wal.Ahead (wal : Wal Entry) : Prop where
  log : ∀ entry ∈ wal.table, entry ∈ wal.log
  tip : ∀ appender tip, wal.appender = some appender → appender.tip = some tip →
    (∀ entry ∈ wal.table, entry ∈ tip) ∧ ∀ entry ∈ tip, entry ∈ wal.log

/-- A mark is true: what it covers is in the table, and what was stored is covered. -/
structure Mark.Holds (table : List Entry) (mark : Mark Entry) : Prop where
  covered : ∀ entry ∈ mark.covered, key entry ∈ table.map key
  stored : ∀ entry ∈ mark.stored, entry ∈ mark.covered

/-- The log is ahead, every mark is true, and an appender with nothing unconfirmed has its log in
the table. -/
structure Wal.Sound (wal : Wal Entry) : Prop extends Wal.Ahead wal where
  marks : ∀ mark ∈ wal.marks, mark.Holds key wal.table
  confirmed : ∀ appender, wal.appender = some appender → appender.unconfirmed = false →
    wal.Confirmed key

variable {key} {guarded} {offers} {wal wal' : Wal Entry}

/-- Every move keeps the log ahead. -/
theorem Wal.Ahead.move (h : wal.Ahead) (hmove : Wal.Move key guarded offers wal wal') :
    wal'.Ahead := by
  cases hmove with
  | write appender entries happender _ =>
      refine ⟨fun entry hentry => List.mem_append_left _ (h.log entry hentry), ?_⟩
      rintro _ tip ⟨⟩ htip
      obtain ⟨htable, hlog⟩ := h.tip appender tip happender htip
      exact ⟨htable, fun entry hentry => List.mem_append_left _ (hlog entry hentry)⟩
  | complete appender entries happender _ =>
      have htable : ∀ entry ∈ wal.table, entry ∈ wal.log ++ entries :=
        fun entry hentry => List.mem_append_left _ (h.log entry hentry)
      refine ⟨htable, ?_⟩
      rintro _ _ ⟨⟩ ⟨⟩
      exact ⟨htable, fun _ hentry => hentry⟩
  | backfill entries happender _ =>
      refine ⟨fun entry hentry => List.mem_append_left _ (h.log entry hentry), ?_⟩
      intro appender tip hsome
      rw [happender] at hsome
      cases hsome
  | insert entries hlog htip =>
      refine ⟨fun entry hentry => ?_, fun appender tip happender hsome => ⟨fun entry hentry => ?_,
        (h.tip appender tip happender hsome).2⟩⟩
      · exact (List.mem_append.mp hentry).elim (h.log entry) (hlog entry)
      · exact (List.mem_append.mp hentry).elim ((h.tip appender tip happender hsome).1 entry)
          (htip appender tip happender hsome entry)
  | confirm appender happender _ =>
      refine ⟨h.log, ?_⟩
      rintro _ tip ⟨⟩ htip
      exact h.tip appender tip happender htip
  | mark appender tip happender _ _ => exact ⟨h.log, h.tip⟩
  | stop => exact ⟨h.log, by rintro _ _ ⟨⟩⟩
  | start tip _ htip _ =>
      refine ⟨h.log, ?_⟩
      rintro _ entries ⟨⟩ hsome
      rw [htip entries hsome]
      exact ⟨h.log, fun _ hentry => hentry⟩

/-- A mark that is true stays true as the table grows. -/
theorem Mark.Holds.grow {table : List Entry} {mark : Mark Entry} (h : mark.Holds key table)
    (entries : List Entry) : mark.Holds key (table ++ entries) where
  covered entry hentry := by
    rw [List.map_append]
    exact List.mem_append_left _ (h.covered entry hentry)
  stored := h.stored

/-- Every guarded move keeps the marks true. -/
theorem Wal.Sound.move (h : wal.Sound key) (hmove : Wal.Move key True offers wal wal') :
    wal'.Sound key := by
  have hahead := h.toAhead.move hmove
  cases hmove with
  | write appender entries happender _ => exact ⟨hahead, h.marks, by rintro _ ⟨⟩ ⟨⟩⟩
  | complete appender entries happender _ => exact ⟨hahead, h.marks, by rintro _ ⟨⟩ ⟨⟩⟩
  | backfill entries happender _ =>
      refine ⟨hahead, h.marks, fun appender hsome => ?_⟩
      rw [happender] at hsome
      cases hsome
  | insert entries hlog htip =>
      refine ⟨hahead, fun mark hmark => (h.marks mark hmark).grow entries, ?_⟩
      intro appender happender hunconfirmed entry hentry
      rw [List.map_append]
      exact List.mem_append_left _ (h.confirmed appender happender hunconfirmed entry hentry)
  | confirm appender happender hguard => exact ⟨hahead, h.marks, fun _ _ _ => hguard trivial⟩
  | mark appender tip happender hunconfirmed htip =>
      refine ⟨hahead, fun mark hmark => ?_, h.confirmed⟩
      rcases List.mem_append.mp hmark with hmark | hmark
      · exact h.marks mark hmark
      · rw [List.mem_singleton.mp hmark]
        obtain ⟨htable, hlog⟩ := h.tip appender tip happender htip
        exact ⟨fun entry hentry => h.confirmed appender happender hunconfirmed entry
          (hlog entry hentry), htable⟩
  | stop => exact ⟨hahead, h.marks, by rintro _ ⟨⟩⟩
  | start tip _ htip hguard => exact ⟨hahead, h.marks, fun _ _ _ => hguard trivial⟩

/-- Any moves keep the log ahead. -/
theorem Wal.Ahead.moves (h : wal.Ahead) (hmoves : Wal.Moves key guarded offers wal wal') :
    wal'.Ahead := by
  induction hmoves with
  | refl => exact h
  | tail _ hmove ih => exact ih.move hmove

/-- Any guarded moves keep the marks true. -/
theorem Wal.Sound.moves (h : wal.Sound key) (hmoves : Wal.Moves key True offers wal wal') :
    wal'.Sound key := by
  induction hmoves with
  | refl => exact h
  | tail _ hmove ih => exact ih.move hmove

/-- A table grows at its end. -/
theorem Wal.Moves.table_prefix (hmoves : Wal.Moves key guarded offers wal wal') :
    wal.table <+: wal'.table := by
  induction hmoves with
  | refl => exact List.prefix_refl _
  | tail _ hmove ih =>
      refine ih.trans ?_
      cases hmove
      case insert entries _ _ => exact List.prefix_append _ entries
      all_goals exact List.prefix_refl _

/-- Moves take nothing out of the table. -/
theorem Wal.Moves.table (hmoves : Wal.Moves key guarded offers wal wal') {entry : Entry}
    (hentry : entry ∈ wal.table) : entry ∈ wal'.table :=
  hmoves.table_prefix.subset hentry

/-- Everything in the log was offered. -/
theorem Wal.Moves.offered (hmoves : Wal.Moves key guarded offers wal wal') (h : wal.Ahead)
    (hlog : ∀ entry ∈ wal.log, offers entry) : ∀ entry ∈ wal'.log, offers entry := by
  induction hmoves with
  | refl => exact hlog
  | tail hmoves hmove ih =>
      have hahead := h.moves hmoves
      cases hmove
      case write entries _ hoffers =>
        exact fun entry hentry => (List.mem_append.mp hentry).elim (ih entry) (hoffers entry)
      case complete entries _ hoffers =>
        exact fun entry hentry => (List.mem_append.mp hentry).elim (ih entry) (hoffers entry)
      case backfill entries _ htable =>
        exact fun entry hentry => (List.mem_append.mp hentry).elim (ih entry)
          fun hentry => ih entry (hahead.log entry (htable entry hentry))
      all_goals exact ih

end Splitforge.Library
