import RealModeTrace.Activation
import RealModeTrace.Catalog.AccessModes
import RealModeTrace.Catalog.Interrupts
import RealModeTrace.Catalog.VideoModes
import RealModeTrace.Cli.Arguments
import RealModeTrace.Cli.Execute
import RealModeTrace.Cli.Inspect
import RealModeTrace.Cli.Outcome
import RealModeTrace.Cli.Replay
import RealModeTrace.Cli.Usage
import RealModeTrace.Clock
import RealModeTrace.Config.Basic
import RealModeTrace.Config.Codec
import RealModeTrace.Config.Section
import RealModeTrace.Event.Basic
import RealModeTrace.Event.Codec
import RealModeTrace.Exclusion
import RealModeTrace.Handles
import RealModeTrace.HexBytes
import RealModeTrace.Json.Printer
import RealModeTrace.Json.Reader
import RealModeTrace.Json.Value
import RealModeTrace.LineBuffer
import RealModeTrace.LogTarget
import RealModeTrace.Machine.Flat
import RealModeTrace.Machine.Registers
import RealModeTrace.Main
import RealModeTrace.Proofs.Clock
import RealModeTrace.Proofs.Config.Exclusion
import RealModeTrace.Proofs.Config.Loading
import RealModeTrace.Proofs.Config.RoundTrip
import RealModeTrace.Proofs.Event.OneLine
import RealModeTrace.Proofs.Event.RoundTrip
import RealModeTrace.Proofs.Json.RoundTrip
import RealModeTrace.Proofs.Json.Scalars
import RealModeTrace.Proofs.Machine.Memory
import RealModeTrace.Proofs.Replay.Refusals
import RealModeTrace.Proofs.Replay.Report
import RealModeTrace.Proofs.Replay.Routing
import RealModeTrace.Proofs.Script
import RealModeTrace.Proofs.Session.BoundedLines
import RealModeTrace.Proofs.Session.Categories
import RealModeTrace.Proofs.Session.Closed
import RealModeTrace.Proofs.Session.Console
import RealModeTrace.Proofs.Session.Effects
import RealModeTrace.Proofs.Session.FreshReads
import RealModeTrace.Proofs.Session.HandleNames
import RealModeTrace.Proofs.Session.History
import RealModeTrace.Proofs.Session.InstructionLines
import RealModeTrace.Proofs.Session.Interrupts
import RealModeTrace.Proofs.Session.LineCounts
import RealModeTrace.Proofs.Session.LoadDecision
import RealModeTrace.Proofs.Session.LogFile
import RealModeTrace.Proofs.Session.MasterSwitch
import RealModeTrace.Proofs.Session.Nesting
import RealModeTrace.Proofs.Session.NewOptions
import RealModeTrace.Proofs.Session.Output
import RealModeTrace.Proofs.Session.PairedReads
import RealModeTrace.Proofs.Session.Periods
import RealModeTrace.Proofs.Session.Programs
import RealModeTrace.Proofs.Session.ReadDumps
import RealModeTrace.Proofs.Session.Reads
import RealModeTrace.Proofs.Session.Records
import RealModeTrace.Proofs.Session.Residents
import RealModeTrace.Proofs.Session.SameCourse
import RealModeTrace.Proofs.Session.Sampling
import RealModeTrace.Proofs.Session.SinkAgreement
import RealModeTrace.Proofs.Session.Soundness
import RealModeTrace.Proofs.Session.Timekeeping
import RealModeTrace.Proofs.Session.TwoRuns
import RealModeTrace.Proofs.Storage.FileTree
import RealModeTrace.Proofs.Storage.LogStream
import RealModeTrace.Proofs.Text.HexRows
import RealModeTrace.Proofs.Text.LineEnds
import RealModeTrace.Proofs.Text.Lines
import RealModeTrace.Proofs.Text.Numerals
import RealModeTrace.Proofs.Text.Plain
import RealModeTrace.Proofs.Toml.DistinctKeys
import RealModeTrace.Proofs.Toml.Quoted
import RealModeTrace.Proofs.Toml.Scalars
import RealModeTrace.Proofs.Toml.Sections
import RealModeTrace.Proofs.Trace.BufferCalls
import RealModeTrace.Proofs.Trace.Delivery
import RealModeTrace.Proofs.Trace.HexColumns
import RealModeTrace.Proofs.Trace.LineBuffer
import RealModeTrace.Proofs.Trace.ReadBack
import RealModeTrace.Proofs.Trace.Shape
import RealModeTrace.Proofs.Trace.Times
import RealModeTrace.Proofs.Trace.Width
import RealModeTrace.Sampler
import RealModeTrace.Script
import RealModeTrace.Session.Basic
import RealModeTrace.Session.Events
import RealModeTrace.Session.Run
import RealModeTrace.Storage.FileError
import RealModeTrace.Storage.FileTree
import RealModeTrace.Storage.Sink
import RealModeTrace.Text.Blank
import RealModeTrace.Text.Lines
import RealModeTrace.Text.Magnitude
import RealModeTrace.Text.Numeral
import RealModeTrace.Text.Search
import RealModeTrace.Text.Utf8
import RealModeTrace.Toml.DateTime
import RealModeTrace.Toml.Document
import RealModeTrace.Toml.Number
import RealModeTrace.Toml.Quoted
import RealModeTrace.Toml.Statement
import RealModeTrace.Toml.Value
import RealModeTrace.Trace.FileLog
import RealModeTrace.Trace.Record
import RealModeTrace.Trace.Writer
