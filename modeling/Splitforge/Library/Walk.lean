import Mathlib.Data.List.Basic
import Splitforge.Library.Fallible

/-!
# Walks over a payload

A walk takes fields off the front of a list of bytes, or fails. A format says which bytes stand for
a value. A walk reads a format when it succeeds on exactly the inputs that start with bytes of the
format, with the value they stand for, and leaves what is behind them. The rules put the formats of
small walks together to those of larger ones.
-/

namespace Splitforge.Library

/-- Takes a value off the front of a list of bytes, or fails. -/
abbrev Walk (Error Byte Value : Type) := StateT (List Byte) (Except Error) Value

namespace Walk

variable {Error Byte Value Value' : Type}

/-- The walk succeeds where bytes of the format are in front, and takes exactly those. -/
def Reads (walk : Walk Error Byte Value) (format : Value → List Byte → Prop) : Prop :=
  ∀ input value rest, walk.run input = .ok (value, rest) ↔
    ∃ bytes, format value bytes ∧ input = bytes ++ rest

/-- The format of raw fields: their bytes, and the values these stand for. -/
def written {Raw : Type} (data : Raw → List Byte) (value : Raw → Value) (read : Value)
    (bytes : List Byte) : Prop :=
  ∃ raw, read = value raw ∧ bytes = data raw

variable {Raw : Type} {walk : Walk Error Byte Value}
variable {format format' : Value → List Byte → Prop}
variable {data : Raw → List Byte} {value : Raw → Value}

/-- A walk of a field and what follows reads the field and, behind it, what may follow it. -/
theorem Reads.field (h : Reads walk (written data value)) {next : Value → Walk Error Byte Value'}
    {back : Raw → Value' → List Byte → Prop}
    (hnext : ∀ raw, Reads (next (value raw)) (back raw)) :
    Reads (walk >>= next) fun read bytes =>
      ∃ raw behind, bytes = data raw ++ behind ∧ back raw read behind := by
  intro input read rest
  rw [StateT.run_bind]
  constructor
  · intro hrun
    obtain ⟨taken, hwalk, hthen⟩ := exists_of_bind hrun
    obtain ⟨first, middle⟩ := taken
    obtain ⟨_, ⟨raw, rfl, rfl⟩, rfl⟩ := (h _ _ _).mp hwalk
    obtain ⟨behind, hback, rfl⟩ := (hnext raw _ _ _).mp hthen
    exact ⟨_, ⟨raw, behind, rfl, hback⟩, (List.append_assoc _ _ _).symm⟩
  · intro hbytes
    obtain ⟨_, ⟨raw, behind, rfl, hback⟩, rfl⟩ := hbytes
    have hwalk := (h (data raw ++ (behind ++ rest)) _ _).mpr ⟨_, ⟨raw, rfl, rfl⟩, rfl⟩
    rw [List.append_assoc, hwalk]
    exact (hnext raw _ _ _).mpr ⟨_, hback, rfl⟩

/-- A walk whose value is put in another form reads the same field. -/
theorem Reads.map (h : Reads walk (written data value)) (image : Value → Value') :
    Reads (image <$> walk) (written data fun raw => image (value raw)) := by
  intro input read rest
  rw [StateT.run_map]
  constructor
  · intro hrun
    cases hwalk : walk.run input with
    | error error =>
        rw [hwalk] at hrun
        cases hrun
    | ok taken =>
        rw [hwalk] at hrun
        cases hrun
        obtain ⟨bytes, ⟨raw, hvalue, hdata⟩, heq⟩ := (h _ _ _).mp hwalk
        exact ⟨bytes, ⟨raw, congrArg image hvalue, hdata⟩, heq⟩
  · intro hbytes
    obtain ⟨bytes, ⟨raw, rfl, hdata⟩, heq⟩ := hbytes
    rw [(h _ _ _).mpr ⟨bytes, ⟨raw, rfl, hdata⟩, heq⟩]
    rfl

/-- The last walk of several, and what is made of the values. -/
theorem Reads.finished (h : Reads walk (written data value)) (image : Value → Value') :
    Reads (walk >>= fun first => pure (image first))
      (written data fun raw => image (value raw)) := by
  have hmap := h.map image
  rwa [map_eq_pure_bind] at hmap

/-- A walk that takes nothing reads the empty bytes. -/
theorem reads_pure (value : Value) :
    Reads (pure value : Walk Error Byte Value) fun value' bytes =>
      value' = value ∧ bytes = [] := by
  intro input value' rest
  constructor
  · intro hrun
    cases hrun
    exact ⟨[], ⟨rfl, rfl⟩, rfl⟩
  · intro hbytes
    obtain ⟨_, ⟨rfl, rfl⟩, rfl⟩ := hbytes
    rfl

/-- Formats of the same bytes are read by the same walks. -/
theorem Reads.congr (h : Reads walk format)
    (hsame : ∀ value bytes, format value bytes ↔ format' value bytes) : Reads walk format' := by
  intro input value rest
  rw [h input value rest]
  exact exists_congr fun bytes => and_congr_left' (hsame value bytes)

/-- A walk that leaves nothing read all of its input. -/
theorem Reads.run_eq_ok_nil (h : Reads walk format) {input : List Byte} {value : Value} :
    walk.run input = .ok (value, []) ↔ format value input := by
  rw [h input value []]
  constructor
  · intro hbytes
    obtain ⟨bytes, hformat, rfl⟩ := hbytes
    rwa [List.append_nil]
  · intro hformat
    exact ⟨input, hformat, (List.append_nil input).symm⟩

end Walk

end Splitforge.Library
