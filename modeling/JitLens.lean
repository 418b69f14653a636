import JitLens.Main
import JitLens.Service
import JitLens.Workspace
import JitLens.Proofs.Text.Digit
import JitLens.Proofs.Text.Utf8
import JitLens.Proofs.Yaml.PlainScalar
import JitLens.Proofs.Yaml.SingleQuoted
import JitLens.Proofs.Yaml.DoubleQuoted
import JitLens.Proofs.Yaml.LexerRun
import JitLens.Proofs.Yaml.WrittenText
import JitLens.Proofs.Settings.FlowGraph
import JitLens.Proofs.Settings.Writes
import JitLens.Proofs.Loader.Sequence
import JitLens.Proofs.Service.Session
import JitLens.Proofs.Compiler.Layers
import JitLens.Proofs.Run.Cancellation
import JitLens.Proofs.Run.Containment
import JitLens.Proofs.Run.Instrumented
import JitLens.Proofs.Run.Inactive
import JitLens.Proofs.Run.Course
import JitLens.Proofs.FrontEnds
import JitLens.Proofs.Files.Frame
import JitLens.Proofs.Run.Frame
import JitLens.Proofs.Service.SettingsFile
import JitLens.Proofs.Persistence
import JitLens.Proofs.Compiler.Unchanged
import JitLens.Proofs.Run.Configuration
import JitLens.Proofs.Run.Lookups
import JitLens.Proofs.Settings.Crossgen
import JitLens.Proofs.Loader.Keys
import JitLens.Proofs.Settings.Overrides
import JitLens.Proofs.Run.Reported
import JitLens.Proofs.Text.Lines
import JitLens.Proofs.FlowGraph.LastDrawing
import JitLens.Proofs.FlowGraph.Picture
import JitLens.Proofs.Files.Overlay
import JitLens.Proofs.Run.Published
import JitLens.Proofs.Loader.Interleaving
import JitLens.Proofs.Loader.Race
import JitLens.Proofs.Compiler.Crossgen
import JitLens.Proofs.Loader.AllOrNothing
import JitLens.Proofs.Settings.Entries
import JitLens.Proofs.Settings.Verbatim
import JitLens.Proofs.Run.References
import JitLens.Proofs.Yaml.BadValues
import JitLens.Proofs.Service.BadFiles
import JitLens.Proofs.Compiler.Packs
import JitLens.Proofs.Run.Phases
import JitLens.Proofs.Compiler.Offered
import JitLens.Proofs.Loader.Version
import JitLens.Proofs.Symbol
