import Splitforge.Library.Json

/-!
# JSON values that end by themselves

Strings, objects and arrays are read back from in front of anything, so they can stand in an array
or in a map. A sequence holds such values between two brackets, with commas.
-/

namespace Splitforge.Library.Json

/-- A form whose text ends by itself. -/
structure Block (α : Type) where
  form : Form α
  read_write : ∀ value rest, form.read (form.write value ++ rest) = some (value, rest)

/-- The comma. -/
def comma : UInt8 := 0x2c

/-- A block from its writer and its reader. -/
def Block.of {α : Type} (write : α → List UInt8) (read : List UInt8 → Option (α × List UInt8))
    (read_write : ∀ value rest, read (write value ++ rest) = some (value, rest))
    (clean : ∀ value, Clean (write value)) : Block α where
  form := ⟨write, read, fun value stop rest _ => read_write value (stop :: rest), clean⟩
  read_write := read_write

/-- A string. -/
def stringBlock : Block String where
  form := string
  read_write text rest := by
    change string.read (quote :: escape (Utf8.encode text) ++ [quote] ++ rest) = _
    simp [string, read_body_escape, guard]

/-- The block of a type whose values are some of another type's. -/
def Block.via {α β : Type} (block : Block β) (into : α → β) (from? : β → Option α)
    (h : ∀ value, from? (into value) = some value) : Block α where
  form := block.form.via into from? h
  read_write value rest := by
    change (block.form.read (block.form.write (into value) ++ rest)).bind _ = _
    rw [block.read_write, Option.bind_some]
    simp [h]

/-- A string that is one of some names. -/
def words {α : Type} (label : α → String) (all : List α)
    (h : ∀ value, (all.find? fun other => label other = label value) = some value) : Block α :=
  stringBlock.via label (fun text => all.find? fun other => label other = text) h

/-- An object from its members' form. -/
def object {α : Type} (members : Form α) : Block α :=
  .of (writeObject members)
    (fun text => do
      let text ← strip [0x7b] text
      let (value, text) ← members.read text
      let text ← strip [0x7d] text
      pure (value, text))
    (fun value rest => by
      have hread := members.read_write value 0x7d rest (Or.inr rfl)
      simp [writeObject, strip, hread])
    (clean_write_object members)

/-- A member of a map: a key and its value. -/
def entry {α : Type} (value : Block α) : Block (String × α) :=
  .of (fun item => label item.1 ++ value.form.write item.2)
    (fun text => do
      let (key, text) ← stringBlock.form.read text
      let text ← strip [0x3a] text
      let (value, text) ← value.form.read text
      pure ((key, value), text))
    (fun item rest => by
      have hkey := stringBlock.read_write item.1 (0x3a :: (value.form.write item.2 ++ rest))
      have htext : label item.1 ++ value.form.write item.2 ++ rest =
          stringBlock.form.write item.1 ++ 0x3a :: (value.form.write item.2 ++ rest) := by
        rw [label, List.append_assoc, List.append_assoc]
        rfl
      rw [htext, hkey]
      simp [strip, value.read_write])
    (fun item => by
      have hcolon : Clean [0x3a] := clean_of_outside (by decide)
      exact ((string.clean item.1).append hcolon).append (value.form.clean item.2))

/-! ## Sequences -/

variable {α : Type} (block : Block α) (close : UInt8)

/-- What follows an item: the others behind commas, and the closing bracket. -/
def writeRest : List α → List UInt8
  | [] => [close]
  | value :: values => comma :: (block.form.write value ++ writeRest values)

/-- Some items with commas between them, and the closing bracket. -/
def writeItems : List α → List UInt8
  | [] => [close]
  | value :: values => block.form.write value ++ writeRest block close values

/-- Reads what follows an item, which is no more items than the fuel. -/
def readRest : Nat → List UInt8 → Option (List α × List UInt8)
  | 0, _ => none
  | _, [] => none
  | fuel + 1, byte :: text =>
      if byte = close then some ([], text)
      else if byte = comma then do
        let (value, text) ← block.form.read text
        let (values, text) ← readRest fuel text
        pure (value :: values, text)
      else none

/-- Reads items up to the closing bracket. -/
def readItems (text : List UInt8) : Option (List α × List UInt8) :=
  if text.head? = some close then some ([], text.tail)
  else do
    let (value, text) ← block.form.read text
    let (values, text) ← readRest block close (text.length + 1) text
    pure (value :: values, text)

variable {block close}

theorem length_le_write_rest (values : List α) :
    values.length < (writeRest block close values).length := by
  induction values with
  | nil => exact Nat.one_pos
  | cons value values ih =>
      rw [writeRest, List.length_cons, List.length_cons, List.length_append]
      omega

theorem read_rest_write_rest (hcomma : comma ≠ close) (values : List α) {fuel : Nat}
    (hfuel : values.length < fuel) (rest : List UInt8) :
    readRest block close fuel (writeRest block close values ++ rest) = some (values, rest) := by
  induction values generalizing fuel with
  | nil =>
      cases fuel with
      | zero => exact absurd hfuel (Nat.not_lt_zero _)
      | succ fuel => exact if_pos rfl
  | cons value values ih =>
      cases fuel with
      | zero => exact absurd hfuel (Nat.not_lt_zero _)
      | succ fuel =>
          rw [writeRest, List.cons_append, List.append_assoc, readRest, if_neg hcomma, if_pos rfl,
            block.read_write]
          show (readRest block close fuel (writeRest block close values ++ rest)).bind _ = _
          rw [ih (by simpa using hfuel), Option.bind_some]
          rfl

theorem read_items_write_items (hcomma : comma ≠ close)
    (hhead : ∀ value rest, (block.form.write value ++ rest).head? ≠ some close)
    (values : List α) (rest : List UInt8) :
    readItems block close (writeItems block close values ++ rest) = some (values, rest) := by
  cases values with
  | nil => exact if_pos rfl
  | cons value values =>
      rw [readItems, writeItems, List.append_assoc, if_neg (hhead value _), block.read_write]
      show (readRest block close _ (writeRest block close values ++ rest)).bind _ = _
      have hlength : values.length < (writeRest block close values).length :=
        length_le_write_rest values
      rw [read_rest_write_rest hcomma values (by rw [List.length_append]; omega), Option.bind_some]
      rfl

theorem clean_write_rest (hclose : Clean [close]) (values : List α) :
    Clean (writeRest block close values) := by
  have hcomma : Clean [comma] := clean_of_outside (by decide)
  induction values with
  | nil => exact hclose
  | cons value values ih => exact hcomma.append ((block.form.clean value).append ih)

theorem clean_write_items (hclose : Clean [close]) (values : List α) :
    Clean (writeItems block close values) := by
  cases values with
  | nil => exact hclose
  | cons value values => exact (block.form.clean value).append (clean_write_rest hclose values)

variable (block close)

/-- A sequence of items between two brackets. -/
def sequence (opening : UInt8) (hopening : Clean [opening]) (hclose : Clean [close])
    (hcomma : comma ≠ close)
    (hhead : ∀ value rest, (block.form.write value ++ rest).head? ≠ some close) : Block (List α) :=
  .of (fun values => opening :: writeItems block close values)
    (fun text => do
      let text ← strip [opening] text
      readItems block close text)
    (fun values rest => by
      simp [strip, read_items_write_items hcomma hhead])
    (fun values => hopening.append (clean_write_items hclose values))

/-- An array. -/
def array (hhead : ∀ value rest, (block.form.write value ++ rest).head? ≠ some 0x5d) :
    Block (List α) :=
  sequence block 0x5d 0x5b (clean_of_outside (by decide)) (clean_of_outside (by decide))
    (by decide) hhead

/-- A map with its members in order. -/
def map : Block (List (String × α)) :=
  sequence (entry block) 0x7d 0x7b (clean_of_outside (by decide)) (clean_of_outside (by decide))
    (by decide) fun item rest => by
      have hquote : ((entry block).form.write item ++ rest).head? = some quote := rfl
      rw [hquote]
      decide

/-- No string begins like the end of an array. -/
theorem string_head_ne (text : String) (rest : List UInt8) :
    (stringBlock.form.write text ++ rest).head? ≠ some 0x5d := by
  have hquote : (stringBlock.form.write text ++ rest).head? = some quote := rfl
  rw [hquote]
  decide

/-- Nothing begins like the end of an array because it is the text of another type's value. -/
theorem via_head_ne {β : Type} {block : Block β} (into : α → β) (from? : β → Option α)
    (h : ∀ value, from? (into value) = some value)
    (hhead : ∀ value rest, (block.form.write value ++ rest).head? ≠ some 0x5d) (value : α)
    (rest : List UInt8) : ((block.via into from? h).form.write value ++ rest).head? ≠ some 0x5d :=
  hhead (into value) rest

/-- No object begins like the end of an array. -/
theorem object_head_ne (members : Form α) (value : α) (rest : List UInt8) :
    ((object members).form.write value ++ rest).head? ≠ some 0x5d := by
  have hbrace : ((object members).form.write value ++ rest).head? = some 0x7b := rfl
  rw [hbrace]
  decide

/-! ## Whole texts -/

/-- Reads a text that is one value and nothing else. -/
def readWhole (text : List UInt8) : Option α :=
  match block.form.read text with
  | some (value, []) => some value
  | _ => none

/-- A written value reads back. -/
@[simp]
theorem read_whole_write (value : α) : readWhole block (block.form.write value) = some value := by
  have hread := block.read_write value []
  rw [List.append_nil] at hread
  rw [readWhole, hread]

/-- The text of a value. -/
def writeText (value : α) : String := (Utf8.decode (block.form.write value)).getD ""

/-- The value of a text. -/
def readText (text : String) : Option α := readWhole block (Utf8.encode text)

/-- The text of a value is read as that value. -/
@[simp]
theorem read_text_write_text (value : α) : readText block (writeText block value) = some value := by
  rw [readText, writeText, Utf8.encode_decode (block.form.clean value).valid, read_whole_write]

end Splitforge.Library.Json
