import Splitforge.Domain.Entity
import Splitforge.Library.Grouping
import Splitforge.Storage.Connection

/-!
# Antennas and checkpoints

Which checkpoint a reader covers, or one antenna on it, for every race of the database, and the
maps that are read back: the whole one, and the one of a single race. An antenna's own row beats
the row for its reader, so leaving out a row that points at another race can bring one to light
that the whole map passes over.
-/

namespace Splitforge.Storage

open Splitforge.Domain Splitforge.Library

/-- `i64::from` of an antenna, as it is stored. -/
def antennaColumn (antenna : UInt16) : Int64 := Int64.ofInt antenna.toNat

/-- `u16::try_from` of a stored integer. -/
def u16TryFrom (value : Int64) : Option UInt16 :=
  if 0 ≤ value.toInt ∧ value.toInt < 2 ^ 16 then some (UInt16.ofNat value.toInt.toNat) else none

theorem to_int_antenna_column (antenna : UInt16) :
    (antennaColumn antenna).toInt = antenna.toNat := by
  have hlt := antenna.toNat_lt
  exact to_int_of_int (by simp only [i64Min]; omega) (by simp only [i64Max]; omega)

/-- An antenna is read back as it was stored. -/
@[simp]
theorem u16_try_from_antenna_column (antenna : UInt16) :
    u16TryFrom (antennaColumn antenna) = some antenna := by
  have hlt := antenna.toNat_lt
  rw [u16TryFrom, to_int_antenna_column, if_pos ⟨by omega, by omega⟩, Int.toNat_natCast,
    UInt16.ofNat_toNat]

/-- Antennas stored alike are one antenna. -/
theorem antenna_column_injective : Function.Injective antennaColumn := by
  intro antenna other h
  have hread := congrArg u16TryFrom h
  rw [u16_try_from_antenna_column, u16_try_from_antenna_column] at hread
  exact Option.some.inj hread

/-- A row of `reader_antennas`. Without an antenna it is for every antenna of its reader. -/
structure ReaderAntenna where
  reader : ReaderId
  antenna : Option Int64
  checkpoint : CheckpointId
deriving DecidableEq

/-- What the two unique indices tell rows apart by. -/
def ReaderAntenna.port (row : ReaderAntenna) : ReaderId × Option Int64 :=
  (row.reader, row.antenna)

/-- The readers, the checkpoints of every race, and which checkpoint each port covers. The fields
hold what the schema enforces, and that antennas are only ever stored from `u16`. -/
structure AntennaTables where
  readers : List ReaderId
  checkpoints : List Checkpoint
  antennas : List ReaderAntenna
  distinct : (checkpoints.map (·.id)).Nodup
  onePerPort : (antennas.map (·.port)).Nodup
  references : ∀ row ∈ antennas,
    row.reader ∈ readers ∧ row.checkpoint ∈ checkpoints.map (·.id)
  fits : ∀ row ∈ antennas, ∀ stored ∈ row.antenna, ∃ antenna, stored = antennaColumn antenna

/-- The rows after a port was mapped: its row is deleted and another inserted. -/
def mapped (antennas : List ReaderAntenna) (row : ReaderAntenna) : List ReaderAntenna :=
  (antennas.filter fun other => other.port ≠ row.port) ++ [row]

theorem mem_mapped {antennas : List ReaderAntenna} {row other : ReaderAntenna} :
    other ∈ mapped antennas row ↔ (other ∈ antennas ∧ other.port ≠ row.port) ∨ other = row := by
  simp [mapped]

/-- Every port still has one row. -/
theorem nodup_mapped {antennas : List ReaderAntenna} (hnodup : (antennas.map (·.port)).Nodup)
    (row : ReaderAntenna) : ((mapped antennas row).map (·.port)).Nodup := by
  rw [mapped, List.map_append, List.map_singleton]
  refine List.nodup_append'.mpr
    ⟨hnodup.sublist (List.filter_sublist.map _), List.nodup_singleton _, ?_⟩
  rw [List.disjoint_singleton]
  intro hmem
  obtain ⟨other, hother, hport⟩ := List.mem_map.mp hmem
  exact of_decide_eq_true (List.mem_filter.mp hother).2 hport

/-- `ConfigStore::map_antenna`: the tables after the transaction, which is rolled back when the
reader or the checkpoint does not exist. -/
def mapAntenna (tables : AntennaTables) (reader : ReaderId) (antenna : Option UInt16)
    (checkpoint : CheckpointId) : Except StorageError AntennaTables :=
  if h : tables.readers.any (fun known => known = reader) = true ∧
      tables.checkpoints.any (fun known => known.id = checkpoint) = true then
    .ok {
      tables with
      antennas := mapped tables.antennas ⟨reader, antenna.map antennaColumn, checkpoint⟩
      onePerPort := nodup_mapped tables.onePerPort _
      references := fun row hrow => by
        rcases mem_mapped.mp hrow with hrow | rfl
        · exact tables.references row hrow.1
        · obtain ⟨hreader, hcheckpoint⟩ := h
          simp only [List.any_eq_true, decide_eq_true_eq] at hreader hcheckpoint
          obtain ⟨known, hknown, rfl⟩ := hreader
          exact ⟨hknown, List.mem_map.mpr hcheckpoint⟩
      fits := fun row hrow stored hstored => by
        rcases mem_mapped.mp hrow with hrow | rfl
        · exact tables.fits row hrow.1 stored hstored
        · obtain ⟨antenna, -, rfl⟩ := Option.map_eq_some_iff.mp hstored
          exact ⟨antenna, rfl⟩ }
  else .error (.sqlite "FOREIGN KEY constraint failed")

/-- One row of a query, put into the map. -/
def readAntennaRow (map : AntennaMap) (row : ReaderAntenna) : Except StorageError AntennaMap :=
  match row.antenna with
  | some stored =>
      match u16TryFrom stored with
      | some antenna => .ok (map.mapAntenna row.reader antenna row.checkpoint)
      | none => .error (.decode "antenna out of range")
  | none => .ok (map.mapReader row.reader row.checkpoint)

/-- `ConfigStore::read_antenna_map`, over the rows a query returns. -/
def readAntennaMap (rows : List ReaderAntenna) : Except StorageError AntennaMap :=
  rows.foldlM readAntennaRow .new

/-- `ConfigStore::antenna_map`: the mapping across every race. -/
def antennaMap (tables : AntennaTables) : Except StorageError AntennaMap :=
  readAntennaMap tables.antennas

/-- Whether a checkpoint belongs to a race. -/
def AntennaTables.belongs (tables : AntennaTables) (race : RaceId) (checkpoint : CheckpointId) :
    Bool :=
  tables.checkpoints.any fun known => known.id = checkpoint && known.race = race

/-- `ConfigStore::antenna_map_for`: the mapping restricted to the checkpoints of one race. -/
def antennaMapFor (tables : AntennaTables) (race : RaceId) : Except StorageError AntennaMap :=
  readAntennaMap (tables.antennas.filter fun row => tables.belongs race row.checkpoint)

/-- The checkpoint in a port's row. -/
def covered (rows : List ReaderAntenna) (port : ReaderId × Option Int64) : Option CheckpointId :=
  (rows.find? fun row => row.port = port).map (·.checkpoint)

section Reading

variable {rows : List ReaderAntenna}

/-- Whether a map holds what the rows say, and what another map says where they are silent. -/
def Reads (rows : List ReaderAntenna) (before after : AntennaMap) : Prop :=
  (∀ reader antenna, after.exact[toLex (reader, UInt16.toNat antenna)]? =
    (covered rows (reader, some (antennaColumn antenna))).or
      before.exact[toLex (reader, antenna.toNat)]?) ∧
  ∀ reader : ReaderId, after.wildcard[reader]? =
    (covered rows (reader, none)).or before.wildcard[reader]?

theorem covered_cons (row : ReaderAntenna) (rows : List ReaderAntenna)
    (port : ReaderId × Option Int64) :
    covered (row :: rows) port = if row.port = port then some row.checkpoint
      else covered rows port := by
  rw [covered, List.find?_cons]
  by_cases hport : row.port = port <;> simp [hport, covered]

/-- A port whose row is another's has no row behind it. -/
theorem covered_eq_none {port : ReaderId × Option Int64} (h : port ∉ rows.map (·.port)) :
    covered rows port = none := by
  rw [covered, Option.map_eq_none_iff, List.find?_eq_none]
  intro row hrow hport
  exact h (List.mem_map.mpr ⟨row, hrow, of_decide_eq_true hport⟩)

/-- A port is covered by the checkpoint of its row. -/
theorem covered_eq_some_iff (hnodup : (rows.map (·.port)).Nodup)
    {port : ReaderId × Option Int64} {checkpoint : CheckpointId} :
    covered rows port = some checkpoint ↔ ⟨port.1, port.2, checkpoint⟩ ∈ rows := by
  induction rows with
  | nil => simp [covered]
  | cons row rows ih =>
      obtain ⟨hrow, hnodup⟩ := List.nodup_cons.mp hnodup
      rw [covered_cons, List.mem_cons]
      split_ifs with hport
      · subst hport
        constructor
        · intro hcheckpoint
          rw [← Option.some.inj hcheckpoint]
          exact Or.inl rfl
        · intro hmem
          rcases hmem with hsame | hmem
          · rw [← hsame]
          · exact absurd (List.mem_map.mpr ⟨_, hmem, rfl⟩) hrow
      · rw [ih hnodup]
        refine ⟨Or.inr, fun hmem => hmem.resolve_left ?_⟩
        intro hsame
        exact hport (congrArg ReaderAntenna.port hsame).symm

/-- One row changes what the map says of its own port. -/
theorem read_antenna_row_eq (map : AntennaMap) {row : ReaderAntenna}
    (hfits : ∀ stored ∈ row.antenna, ∃ antenna, stored = antennaColumn antenna) :
    ∃ after, readAntennaRow map row = .ok after ∧ Reads [row] map after := by
  obtain ⟨source, stored, checkpoint⟩ := row
  cases stored with
  | none =>
      refine ⟨map.mapReader source checkpoint, rfl, fun reader antenna => ?_, fun reader => ?_⟩
      · rw [covered_eq_none (by simp [ReaderAntenna.port])]
        rfl
      · rw [covered_cons, AntennaMap.mapReader, get_insert]
        by_cases hreader : source = reader
        · simp [ReaderAntenna.port, hreader]
        · simp [ReaderAntenna.port, hreader, covered]
  | some stored =>
      obtain ⟨antenna, rfl⟩ := hfits stored rfl
      refine ⟨map.mapAntenna source antenna checkpoint, ?_, fun reader other => ?_,
        fun reader => ?_⟩
      · simp [readAntennaRow]
      · rw [covered_cons, AntennaMap.mapAntenna, get_insert]
        by_cases hsame : source = reader ∧ antenna = other
        · simp [ReaderAntenna.port, hsame.1, hsame.2]
        · have hkey : toLex (source, antenna.toNat) ≠ toLex (reader, other.toNat) := by
            intro heq
            obtain ⟨hreader, hantenna⟩ := Prod.mk.inj (toLex_inj.mp heq)
            exact hsame ⟨hreader, UInt16.toNat_inj.mp hantenna⟩
          have hport : (source, some (antennaColumn antenna)) ≠
              (reader, some (antennaColumn other)) := by
            intro heq
            obtain ⟨hreader, hantenna⟩ := Prod.mk.inj heq
            exact hsame ⟨hreader, antenna_column_injective (Option.some.inj hantenna)⟩
          rw [if_neg hkey, ReaderAntenna.port, if_neg hport]
          rfl
      · rw [covered_eq_none (by simp [ReaderAntenna.port])]
        rfl

/-- A row and then others say what all of them say, when no other is for its port. -/
theorem covered_or_covered {row : ReaderAntenna} (hrow : row.port ∉ rows.map (·.port))
    (port : ReaderId × Option Int64) (before : Option CheckpointId) :
    (covered rows port).or ((covered [row] port).or before) =
      (covered (row :: rows) port).or before := by
  rw [covered_cons, covered_cons]
  split_ifs with hport
  · rw [covered_eq_none (hport ▸ hrow)]
    rfl
  · rfl

/-- Reading the rows one after another puts all of them into the map. -/
theorem read_antenna_rows (map : AntennaMap) (hnodup : (rows.map (·.port)).Nodup)
    (hfits : ∀ row ∈ rows, ∀ stored ∈ row.antenna, ∃ antenna, stored = antennaColumn antenna) :
    ∃ after, rows.foldlM readAntennaRow map = .ok after ∧ Reads rows map after := by
  induction rows generalizing map with
  | nil => exact ⟨map, rfl, fun _ _ => rfl, fun _ => rfl⟩
  | cons row rows ih =>
      obtain ⟨hrow, hnodup⟩ := List.nodup_cons.mp hnodup
      obtain ⟨next, hnext, hreads⟩ := read_antenna_row_eq map (hfits row List.mem_cons_self)
      obtain ⟨after, hafter, hall⟩ := ih next hnodup fun other hother =>
        hfits other (List.mem_cons_of_mem _ hother)
      refine ⟨after, ?_, ?_⟩
      · rw [List.foldlM_cons, hnext]
        exact hafter
      · refine ⟨fun reader antenna => ?_, fun reader => ?_⟩
        · rw [hall.1, hreads.1, covered_or_covered hrow]
        · rw [hall.2, hreads.2, covered_or_covered hrow]

/-- What the rows resolve a reader and antenna to: the antenna's own row, or else its reader's. -/
def resolved (rows : List ReaderAntenna) (reader : ReaderId) (antenna : Option UInt16) :
    Option CheckpointId :=
  (antenna.bind fun antenna => covered rows (reader, some (antennaColumn antenna))).or
    (covered rows (reader, none))

/-- The map that is read resolves as the rows do. -/
theorem read_antenna_map_eq (hnodup : (rows.map (·.port)).Nodup)
    (hfits : ∀ row ∈ rows, ∀ stored ∈ row.antenna, ∃ antenna, stored = antennaColumn antenna) :
    ∃ map, readAntennaMap rows = .ok map ∧ ∀ reader antenna,
      map.resolve reader antenna = resolved rows reader antenna := by
  obtain ⟨map, hmap, hreads⟩ := read_antenna_rows .new hnodup hfits
  refine ⟨map, hmap, fun reader antenna => ?_⟩
  have hempty (port : ReaderId ×ₗ Nat) : AntennaMap.new.exact[port]? = none :=
    Std.ExtTreeMap.getElem?_empty
  have hempty' : AntennaMap.new.wildcard[reader]? = none := Std.ExtTreeMap.getElem?_empty
  rw [AntennaMap.resolve, resolved, hreads.2, hempty', Option.or_none]
  cases antenna with
  | none => rfl
  | some antenna =>
      rw [Option.bind_some, Option.bind_some, hreads.1, hempty, Option.or_none]

/-- A port's row is found wherever it stands. -/
theorem covered_perm {rows' : List ReaderAntenna} (hnodup : (rows.map (·.port)).Nodup)
    (hperm : rows.Perm rows') (port : ReaderId × Option Int64) :
    covered rows port = covered rows' port := by
  ext checkpoint
  rw [covered_eq_some_iff hnodup, covered_eq_some_iff ((hperm.map _).nodup_iff.mp hnodup)]
  rw [hperm.mem_iff]

/-- The order a query returns its rows in does not matter: the maps resolve alike. -/
theorem read_antenna_map_perm {rows' : List ReaderAntenna} (hnodup : (rows.map (·.port)).Nodup)
    (hfits : ∀ row ∈ rows, ∀ stored ∈ row.antenna, ∃ antenna, stored = antennaColumn antenna)
    (hperm : rows.Perm rows') :
    ∃ map map', readAntennaMap rows = .ok map ∧ readAntennaMap rows' = .ok map' ∧
      ∀ reader antenna, map.resolve reader antenna = map'.resolve reader antenna := by
  obtain ⟨map, hmap, hresolve⟩ := read_antenna_map_eq hnodup hfits
  obtain ⟨map', hmap', hresolve'⟩ := read_antenna_map_eq ((hperm.map _).nodup_iff.mp hnodup)
    fun row hrow => hfits row (hperm.mem_iff.mpr hrow)
  refine ⟨map, map', hmap, hmap', fun reader antenna => ?_⟩
  rw [hresolve, hresolve', resolved, resolved, covered_perm hnodup hperm]
  simp only [covered_perm hnodup hperm]

/-- Of the rows that are kept, a port's row covers what it covers among all of them. -/
theorem covered_filter (keeps : CheckpointId → Bool) (hnodup : (rows.map (·.port)).Nodup)
    (port : ReaderId × Option Int64) :
    covered (rows.filter fun row => keeps row.checkpoint) port =
      (covered rows port).filter keeps := by
  ext checkpoint
  rw [covered_eq_some_iff (hnodup.sublist (List.filter_sublist.map _)), Option.filter_eq_some_iff,
    covered_eq_some_iff hnodup]
  rw [List.mem_filter]

end Reading

/-- A port that resolves to another race's checkpoint by its own row, while its reader's row is
for a checkpoint of this race. -/
def PassedOver (tables : AntennaTables) (race : RaceId) (reader : ReaderId)
    (antenna : Option UInt16) : Prop :=
  ∃ port elsewhere here, antenna = some port ∧
    ⟨reader, some (antennaColumn port), elsewhere⟩ ∈ tables.antennas ∧
    ⟨reader, none, here⟩ ∈ tables.antennas ∧
    tables.belongs race elsewhere = false ∧ tables.belongs race here = true

/-- An antenna's own entry and its reader's, restricted before one is chosen and after. -/
theorem filter_or_iff (keeps : CheckpointId → Bool) (exact wildcard : Option CheckpointId) :
    (∀ checkpoint, (exact.filter keeps).or (wildcard.filter keeps) = some checkpoint ↔
      exact.or wildcard = some checkpoint ∧ keeps checkpoint = true) ↔
    ¬ ∃ elsewhere here, exact = some elsewhere ∧ wildcard = some here ∧
      keeps elsewhere = false ∧ keeps here = true := by
  cases exact with
  | none => simp [Option.filter_eq_some_iff]
  | some elsewhere =>
      cases helsewhere : keeps elsewhere with
      | true =>
          -- the antenna's own entry stays, and is chosen either way
          refine iff_of_true (fun checkpoint => ?_) (fun hpassed => ?_)
          · rw [Option.filter_some, if_pos helsewhere, Option.some_or, Option.some_or]
            refine ⟨fun h => ⟨h, ?_⟩, fun h => h.1⟩
            rw [← Option.some.inj h, helsewhere]
          · obtain ⟨other, _, hother, _, hnot, _⟩ := hpassed
            rw [← Option.some.inj hother, helsewhere] at hnot
            cases hnot
      | false =>
          -- the antenna's own entry goes, and nothing is left to choose but the wildcard
          have hfilter : (some elsewhere).filter keeps = none := by
            rw [Option.filter_some, if_neg (by rw [helsewhere]; exact Bool.false_ne_true)]
          rw [hfilter, Option.none_or, Option.some_or]
          constructor
          · intro hagree hpassed
            obtain ⟨other, here, hother, rfl, hnot, hhere⟩ := hpassed
            have hcredited := (hagree here).mp (by rw [Option.filter_some, if_pos hhere])
            rw [← Option.some.inj hcredited.1, helsewhere] at hhere
            cases hhere
          · intro hnot checkpoint
            constructor
            · intro h
              obtain ⟨hwildcard, hkeeps⟩ := Option.filter_eq_some_iff.mp h
              exact absurd ⟨elsewhere, checkpoint, rfl, hwildcard, helsewhere, hkeeps⟩ hnot
            · intro h
              rw [← Option.some.inj h.1, helsewhere] at h
              cases h.2

/-- The map of one race agrees with the whole one about a reader and antenna exactly when leaving
out a row of another race does not bring one of this race to light. -/
theorem race_map_agrees_iff (tables : AntennaTables) (race : RaceId) (reader : ReaderId)
    (antenna : Option UInt16) :
    ∃ whole ofRace, antennaMap tables = .ok whole ∧ antennaMapFor tables race = .ok ofRace ∧
      ((∀ checkpoint, ofRace.resolve reader antenna = some checkpoint ↔
          whole.resolve reader antenna = some checkpoint ∧
            tables.belongs race checkpoint = true) ↔
        ¬ PassedOver tables race reader antenna) := by
  have hnodup : ((tables.antennas.filter fun row =>
      tables.belongs race row.checkpoint).map (·.port)).Nodup :=
    tables.onePerPort.sublist (List.filter_sublist.map _)
  obtain ⟨whole, hwhole, hresolve⟩ := read_antenna_map_eq tables.onePerPort tables.fits
  obtain ⟨ofRace, hofRace, hresolve'⟩ := read_antenna_map_eq hnodup
    fun row hrow => tables.fits row (List.mem_filter.mp hrow).1
  refine ⟨whole, ofRace, hwhole, hofRace, ?_⟩
  simp only [hresolve, hresolve', resolved, covered_filter _ tables.onePerPort]
  cases antenna with
  | none =>
      have hnone : ¬ PassedOver tables race reader none := by
        intro hpassed
        obtain ⟨_, _, _, hport, _⟩ := hpassed
        cases hport
      simp [hnone, Option.filter_eq_some_iff]
  | some antenna =>
      simp only [Option.bind_some]
      rw [filter_or_iff]
      simp only [covered_eq_some_iff tables.onePerPort]
      refine not_congr ⟨fun h => ?_, fun h => ?_⟩
      · obtain ⟨elsewhere, here, hexact, hwildcard, hnot, hhere⟩ := h
        exact ⟨antenna, elsewhere, here, rfl, hexact, hwildcard, hnot, hhere⟩
      · obtain ⟨port, elsewhere, here, hport, hexact, hwildcard, hnot, hhere⟩ := h
        cases hport
        exact ⟨elsewhere, here, hexact, hwildcard, hnot, hhere⟩

/-- One reader with a row of its own for the first race and a row for its fourth antenna for the
second. -/
def sharedReader : AntennaTables where
  readers := [⟨"R1"⟩]
  checkpoints := [⟨⟨.fromU128 50⟩, ⟨.fromU128 90⟩, "finish", .finish, 0⟩,
    ⟨⟨.fromU128 51⟩, ⟨.fromU128 91⟩, "finish", .finish, 0⟩]
  antennas := [⟨⟨"R1"⟩, none, ⟨.fromU128 50⟩⟩,
    ⟨⟨"R1"⟩, some (antennaColumn 4), ⟨.fromU128 51⟩⟩]
  distinct := by decide
  onePerPort := by decide
  references := by decide
  fits := by simp

/-- The map of the first race credits it with what the fourth antenna of its reader saw, which the
whole map puts at the finish of the second race. -/
theorem race_map_disagrees :
    ¬ ∀ (tables : AntennaTables) (race : RaceId) (reader : ReaderId) (antenna : Option UInt16),
      ∃ whole ofRace, antennaMap tables = .ok whole ∧ antennaMapFor tables race = .ok ofRace ∧
        ∀ checkpoint, ofRace.resolve reader antenna = some checkpoint ↔
          whole.resolve reader antenna = some checkpoint ∧
            tables.belongs race checkpoint = true := by
  intro hagree
  obtain ⟨whole, ofRace, hwhole, hofRace, hall⟩ :=
    hagree sharedReader ⟨.fromU128 90⟩ ⟨"R1"⟩ (some 4)
  have hcredited : (antennaMapFor sharedReader ⟨.fromU128 90⟩).toOption.bind
      (fun map => map.resolve ⟨"R1"⟩ (some 4)) = some ⟨.fromU128 50⟩ := by
    decide +kernel
  have helsewhere : (antennaMap sharedReader).toOption.bind
      (fun map => map.resolve ⟨"R1"⟩ (some 4)) = some ⟨.fromU128 51⟩ := by
    decide +kernel
  rw [hofRace] at hcredited
  rw [hwhole] at helsewhere
  have hfinish := ((hall ⟨.fromU128 50⟩).mp hcredited).1
  rw [show whole.resolve ⟨"R1"⟩ (some 4) = some ⟨.fromU128 51⟩ from helsewhere] at hfinish
  revert hfinish
  decide

end Splitforge.Storage
