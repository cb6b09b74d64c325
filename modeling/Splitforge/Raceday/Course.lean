import Splitforge.Domain.Race
import Splitforge.Raceday.Contract

/-!
# The course

What the operator says about the course. The timer never needs to know how long a race is, but the
public page measures everything in metres.
-/

namespace Splitforge.Raceday

open Std (ExtTreeMap)
open Splitforge.Domain

/-- What placing checkpoints asks of `f64`: comparisons are those of IEEE 754, and `totalKey` is in
the order of `total_cmp`. -/
class Meters (Metres : Type) where
  zero : Metres
  ofLaps : UInt16 → Metres
  divide : Metres → Metres → Metres
  isFinite : Metres → Bool
  lt : Metres → Metres → Bool
  le : Metres → Metres → Bool
  totalKey : Metres → Int

/-- The bits of a float, the negative ones counted down from minus one. -/
def floatTotalKey (meters : Float) : Int :=
  let bits := meters.toBits.toNat
  if bits < 2 ^ 63 then bits else 2 ^ 63 - 1 - bits

instance : Meters Float where
  zero := 0
  ofLaps laps := Float.ofNat laps.toNat
  divide total laps := total / laps
  isFinite meters := meters.isFinite
  lt first second := first < second
  le first second := first ≤ second
  totalKey := floatTotalKey

/-- Whole metres, for courses of one lap. -/
instance : Meters Int where
  zero := 0
  ofLaps laps := laps.toNat
  divide total laps := total / laps
  isFinite _ := true
  lt first second := first < second
  le first second := first ≤ second
  totalKey meters := meters

/-- One SplitForge race, as a RaceDay Connect distance: its key, its length with all laps, and
where each intermediate split sits along one lap, by checkpoint name. -/
structure Course (Metres : Type) where
  race : RaceId
  key : String
  meters : Metres
  splits : ExtTreeMap String Metres

/-- `char::is_whitespace`. -/
def isWhitespace (c : Char) : Bool :=
  let code := c.toNat
  (0x09 ≤ code && code ≤ 0x0D) || (0x2000 ≤ code && code ≤ 0x200A) ||
    [0x20, 0x85, 0xA0, 0x1680, 0x2028, 0x2029, 0x202F, 0x205F, 0x3000].contains code

/-- `str::trim`. -/
def trim (text : String) : String :=
  String.ofList ((text.toList.dropWhile isWhitespace).reverse.dropWhile isWhitespace).reverse

end Splitforge.Raceday
