import Splitforge.Domain.Revision

/-!
# The contract

What RaceDay Connect's timing endpoints read: the course, batches of live crossings, and result
revisions. Positions along a course are of a type of their own, which `Course` says more about.
-/

namespace Splitforge.Raceday

open Splitforge.Domain

/-- Most crossings RaceDay Connect accepts in one batch. -/
def maxCrossingsPerBatch : Nat := 5000

/-- Most rows RaceDay Connect accepts in one revision. -/
def maxEntriesPerRevision : Nat := 50000

/-- Longest bib RaceDay Connect stores. -/
def maxBibLen : Nat := 20

/-- Longest distance key RaceDay Connect accepts. -/
def maxKeyLen : Nat := 40

/-- One mat: its key, what the page calls it, and how far along one lap it sits. -/
structure TimingPoint (Metres : Type) where
  key : String
  name : String
  meters : Metres
deriving DecidableEq

/-- One distance, which is one SplitForge race. -/
structure Distance (Metres : Type) where
  key : String
  name : String
  meters : Metres
  gunAt : Option OffsetDateTime
  timingPoints : List (TimingPoint Metres)
  laps : UInt16
deriving DecidableEq

/-- The whole course: every distance, as one document. A send replaces the last one. -/
structure Manifest (Metres : Type) where
  distances : List (Distance Metres)
deriving DecidableEq

/-- One runner crossing one mat. -/
structure Crossing where
  distanceKey : String
  pointKey : String
  bib : String
  name : Option String
  elapsedMs : Option Int
  crossedAt : OffsetDateTime
  lap : UInt16
deriving DecidableEq

/-- One runner in one distance. -/
@[ext]
structure RunnerRef where
  distanceKey : String
  bib : String
deriving DecidableEq

/-- A runner as the pair of texts runners are ordered by. -/
def RunnerRef.key (runner : RunnerRef) : String ×ₗ String :=
  toLex (runner.distanceKey, runner.bib)

instance : LinearOrder RunnerRef :=
  LinearOrder.lift' RunnerRef.key fun _ _ h =>
    RunnerRef.ext (congrArg Prod.fst (toLex_inj.mp h)) (congrArg Prod.snd (toLex_inj.mp h))

/-- Runners can be looked up by their order. -/
instance : Std.TransOrd RunnerRef := inferInstance

/-- A batch of live crossings. Each runner in `replaces` keeps only the crossings sent here. -/
structure CrossingsBatch where
  crossings : List Crossing
  replaces : List RunnerRef
deriving DecidableEq

/-- One intermediate time, from the same start the result is measured from. -/
structure Split where
  pointKey : String
  elapsedMs : Int
deriving DecidableEq

/-- One runner's result. -/
structure ResultRow where
  distanceKey : String
  bib : String
  name : String
  status : String
  overallPlace : Option Nat
  gunMs : Option Int
  chipMs : Option Int
  splits : List Split
deriving DecidableEq

/-- One result revision of one distance, whole. -/
structure ResultsRevision where
  revision : Nat
  status : String
  note : Option String
  publishedAt : OffsetDateTime
  distanceKey : String
  digest : String
  entries : List ResultRow
deriving DecidableEq

end Splitforge.Raceday
