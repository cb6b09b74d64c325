import Splitforge.Domain.Read
import Std.Data.ExtTreeMap
import Mathlib.Order.Compare

/-!
# Timing policy

The configurable rules that turn reads into crossings. An ordered map of the source is an
`ExtTreeMap` here: iteration is in key order and equality is equality of entries.
-/

namespace Splitforge.Domain

open Std (ExtTreeMap)

/-- Which read within a burst becomes the crossing. -/
inductive SelectionRule where
  | first
  | firstAboveRssi (floorDbm : Int16)
  | peakRssi
deriving DecidableEq

/-- Per-checkpoint overrides. A field left `none` falls back to the race-wide policy. -/
structure CheckpointPolicy where
  minIntervalMs : Option Nat
  selectionRule : Option SelectionRule
deriving DecidableEq

/-- The rules used to derive crossings from reads. -/
structure TimingPolicy where
  minIntervalMs : Nat
  selectionRule : SelectionRule
  minLapMs : Option Nat
  perCheckpoint : ExtTreeMap CheckpointId CheckpointPolicy

/-- The dedup window in force at a checkpoint. -/
def TimingPolicy.minIntervalMsFor (policy : TimingPolicy) (checkpoint : CheckpointId) : Nat :=
  (policy.perCheckpoint[checkpoint]?.bind (·.minIntervalMs)).getD policy.minIntervalMs

/-- The selection rule in force at a checkpoint. -/
def TimingPolicy.selectionRuleFor (policy : TimingPolicy) (checkpoint : CheckpointId) :
    SelectionRule :=
  (policy.perCheckpoint[checkpoint]?.bind (·.selectionRule)).getD policy.selectionRule

end Splitforge.Domain
