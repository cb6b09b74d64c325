import Splitforge.Storage.WriteAhead
import Splitforge.Storage.Checkpoints
import Splitforge.Storage.GapHistory
import Splitforge.Storage.PowerCuts
import Splitforge.Storage.Reconcile
import Splitforge.Storage.Restore
import Splitforge.Engine.Laps
import Splitforge.Engine.OrderIndependence
import Splitforge.Results.Rules
import Splitforge.Results.OrderIndependence
import Splitforge.Engine.Separation
import Splitforge.Thingmagic.StartOrder
import Splitforge.Thingmagic.Conservation
import Splitforge.Thingmagic.Replay
import Splitforge.Thingmagic.ChipIds
import Splitforge.Edge.ReadPath
import Splitforge.Edge.GapEvidence
import Splitforge.Edge.ClockWatch
import Splitforge.Edge.Restored
import Splitforge.Edge.GapTimes
import Splitforge.Raceday.Splits
import Splitforge.Raceday.Pairing
import Splitforge.Cli.Anonymity
import Splitforge.Cli.Chips
import Splitforge.Storage.Antennas
import Splitforge.Results.Manual
import Splitforge.Results.Locality
import Splitforge.Results.Bystanders
import Splitforge.Cli.ClockTrust
import Splitforge.Engine.LapOrder
import Splitforge.Engine.MinLap
import Splitforge.Engine.Locality
import Splitforge.Export.Durations
import Splitforge.Raceday.Address
import Splitforge.Raceday.Restatement
import Splitforge.Storage.LineCodec
import Splitforge.Thingmagic.Checksum
import Splitforge.Raceday.Unseen
import Splitforge.Thingmagic.CaptureLines
import Splitforge.Storage.RevisionHistory
import Splitforge.Raceday.RevisionOrder
import Splitforge.Raceday.RevisionRuns
import Splitforge.Cli.ResultTables
import Splitforge.Raceday.Keys
import Splitforge.Cli.CourseChecks
import Splitforge.Thingmagic.Provider
import Splitforge.Thingmagic.ProviderReads
import Splitforge.Thingmagic.ProviderLifecycle
import Splitforge.Thingmagic.Schedule
import Splitforge.Thingmagic.CaptureQueue
import Splitforge.Engine.Finality
import Splitforge.Engine.Recovery
import Splitforge.Storage.ReadSince
import Splitforge.Cli.RawReadView
import Splitforge.Cli.Tail
import Splitforge.Reader.Ingest
import Splitforge.Simulator.Scenario
import Splitforge.Simulator.Script
import Splitforge.Simulator.Transport
import Splitforge.Cli.Simulate
import Splitforge.Cli.SimulatedRace
import Splitforge.Storage.Migrations
import Splitforge.Library.Saves
import Splitforge.Storage.Config
import Splitforge.Storage.Configured
import Splitforge.Storage.Loaded
import Splitforge.Storage.Filed
import Splitforge.Storage.Rosters
import Splitforge.Storage.RaceSelection
