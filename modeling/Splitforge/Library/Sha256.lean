import Mathlib.Data.UInt
import Mathlib.Data.List.Basic

/-!
# SHA-256

The digest of a list of bytes, as a list of 32 bytes, on 32-bit words: padding, the message
schedule, and 64 rounds for each block of 64 bytes.
-/

namespace Splitforge.Library.Sha256

/-- The constants of the rounds. -/
def roundConstants : List UInt32 :=
  [0x428a2f98, 0x71374491, 0xb5c0fbcf, 0xe9b5dba5, 0x3956c25b, 0x59f111f1,
   0x923f82a4, 0xab1c5ed5, 0xd807aa98, 0x12835b01, 0x243185be, 0x550c7dc3,
   0x72be5d74, 0x80deb1fe, 0x9bdc06a7, 0xc19bf174, 0xe49b69c1, 0xefbe4786,
   0x0fc19dc6, 0x240ca1cc, 0x2de92c6f, 0x4a7484aa, 0x5cb0a9dc, 0x76f988da,
   0x983e5152, 0xa831c66d, 0xb00327c8, 0xbf597fc7, 0xc6e00bf3, 0xd5a79147,
   0x06ca6351, 0x14292967, 0x27b70a85, 0x2e1b2138, 0x4d2c6dfc, 0x53380d13,
   0x650a7354, 0x766a0abb, 0x81c2c92e, 0x92722c85, 0xa2bfe8a1, 0xa81a664b,
   0xc24b8b70, 0xc76c51a3, 0xd192e819, 0xd6990624, 0xf40e3585, 0x106aa070,
   0x19a4c116, 0x1e376c08, 0x2748774c, 0x34b0bcb5, 0x391c0cb3, 0x4ed8aa4a,
   0x5b9cca4f, 0x682e6ff3, 0x748f82ee, 0x78a5636f, 0x84c87814, 0x8cc70208,
   0x90befffa, 0xa4506ceb, 0xbef9a3f7, 0xc67178f2]

/-- The eight words of a state. -/
structure State where
  a : UInt32
  b : UInt32
  c : UInt32
  d : UInt32
  e : UInt32
  f : UInt32
  g : UInt32
  h : UInt32

/-- The state before the first block. -/
def initial : State :=
  ⟨0x6a09e667, 0xbb67ae85, 0x3c6ef372, 0xa54ff53a,
   0x510e527f, 0x9b05688c, 0x1f83d9ab, 0x5be0cd19⟩

/-- A word turned right by some bits. -/
def rotateRight (word count : UInt32) : UInt32 :=
  word >>> count ||| word <<< (32 - count)

/-- The word of four bytes, most significant first. -/
def wordOf (first second third fourth : UInt8) : UInt32 :=
  first.toUInt32 <<< 24 ||| second.toUInt32 <<< 16 ||| third.toUInt32 <<< 8 ||| fourth.toUInt32

/-- The words of some bytes. -/
def words : List UInt8 → List UInt32
  | first :: second :: third :: fourth :: rest => wordOf first second third fourth :: words rest
  | _ => []

/-- The bytes of a word, most significant first. -/
def bytesOf (word : UInt32) : List UInt8 :=
  [(word >>> 24).toUInt8, (word >>> 16).toUInt8, (word >>> 8).toUInt8, word.toUInt8]

/-- The word that follows sixteen words of a message schedule. -/
def nextWord (window : List UInt32) : UInt32 :=
  let early := window.getD 1 0
  let late := window.getD 14 0
  window.getD 0 0 + (rotateRight early 7 ^^^ rotateRight early 18 ^^^ early >>> 3) +
    window.getD 9 0 + (rotateRight late 17 ^^^ rotateRight late 19 ^^^ late >>> 10)

/-- The words of a message schedule, from sixteen of them on. -/
def schedule : Nat → List UInt32 → List UInt32
  | 0, _ => []
  | count + 1, window => window.getD 0 0 :: schedule count (window.tail ++ [nextWord window])

/-- One round. -/
def round (state : State) (constant word : UInt32) : State :=
  let choice := (state.e &&& state.f) ^^^ (~~~ state.e &&& state.g)
  let majority := (state.a &&& state.b) ^^^ (state.a &&& state.c) ^^^ (state.b &&& state.c)
  let first := state.h + (rotateRight state.e 6 ^^^ rotateRight state.e 11 ^^^
    rotateRight state.e 25) + choice + constant + word
  let second := (rotateRight state.a 2 ^^^ rotateRight state.a 13 ^^^ rotateRight state.a 22) +
    majority
  ⟨first + second, state.a, state.b, state.c, state.d + first, state.e, state.f, state.g⟩

/-- The rounds of a block, one for each constant. -/
def rounds : State → List UInt32 → List UInt32 → State
  | state, constant :: constants, word :: rest => rounds (round state constant word) constants rest
  | state, _, _ => state

/-- A state behind one more block. -/
def compress (state : State) (block : List UInt8) : State :=
  let last := rounds state roundConstants (schedule 64 (words block))
  ⟨state.a + last.a, state.b + last.b, state.c + last.c, state.d + last.d,
    state.e + last.e, state.f + last.f, state.g + last.g, state.h + last.h⟩

/-- The padded message: a one bit, zeros, and the length in bits as eight bytes. -/
def pad (message : List UInt8) : List UInt8 :=
  let bits := message.length * 8
  message ++ 0x80 :: List.replicate ((119 - message.length % 64) % 64) 0 ++
    [56, 48, 40, 32, 24, 16, 8, 0].map fun shift => UInt8.ofNat (bits / 2 ^ shift)

/-- A state behind some blocks of 64 bytes. -/
def absorb : Nat → State → List UInt8 → State
  | 0, state, _ => state
  | count + 1, state, bytes => absorb count (compress state (bytes.take 64)) (bytes.drop 64)

/-- The digest of a message. -/
def digest (message : List UInt8) : List UInt8 :=
  let padded := pad message
  let last := absorb (padded.length / 64) initial padded
  [last.a, last.b, last.c, last.d, last.e, last.f, last.g, last.h].flatMap bytesOf

/-- A digest is 32 bytes long. -/
@[simp]
theorem length_digest (message : List UInt8) : (digest message).length = 32 := rfl

example : (digest [0x61, 0x62, 0x63]).take 4 = [0xba, 0x78, 0x16, 0xbf] := by decide +kernel

end Splitforge.Library.Sha256
