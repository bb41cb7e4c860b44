import Stagecraft.Bytes
import Stagecraft.CommandLine.Command
import Stagecraft.CommandLine.Run
import Stagecraft.Diagnostic
import Stagecraft.Dictionary
import Stagecraft.Disk.Basic
import Stagecraft.Disk.Memory
import Stagecraft.Instruction.Basic
import Stagecraft.Instruction.Decode
import Stagecraft.Json.Basic
import Stagecraft.Json.Decode
import Stagecraft.Json.Read
import Stagecraft.Machine.Arguments
import Stagecraft.Machine.Basic
import Stagecraft.Machine.Builtin
import Stagecraft.Machine.Error
import Stagecraft.Machine.Format
import Stagecraft.Machine.Launch
import Stagecraft.Machine.Random
import Stagecraft.Machine.Step
import Stagecraft.Machine.Thread
import Stagecraft.Main
import Stagecraft.Markup
import Stagecraft.Module.Basic
import Stagecraft.Module.Builder
import Stagecraft.Module.Document
import Stagecraft.Module.Error
import Stagecraft.Module.Listing
import Stagecraft.Module.Memo
import Stagecraft.Number.Binary
import Stagecraft.Number.Layout
import Stagecraft.Number.Reading
import Stagecraft.Number.Shortest
import Stagecraft.Project.Bindings
import Stagecraft.Project.Code
import Stagecraft.Project.Compile
import Stagecraft.Project.Folder
import Stagecraft.Project.Includes
import Stagecraft.Project.Path
import Stagecraft.Project.Source
import Stagecraft.Project.Symbol
import Stagecraft.Proofs.Basic
import Stagecraft.Proofs.Bytes
import Stagecraft.Proofs.Code.Begins
import Stagecraft.Proofs.Code.CallSites
import Stagecraft.Proofs.Code.Emitted
import Stagecraft.Proofs.Code.ExpressionRun
import Stagecraft.Proofs.Code.Filled
import Stagecraft.Proofs.Code.Kept
import Stagecraft.Proofs.Code.Landings
import Stagecraft.Proofs.Code.Mentions
import Stagecraft.Proofs.Code.Menu
import Stagecraft.Proofs.Code.Placed
import Stagecraft.Proofs.Code.Polling
import Stagecraft.Proofs.Code.Resolved
import Stagecraft.Proofs.Code.StatementRun
import Stagecraft.Proofs.Code.Structured
import Stagecraft.Proofs.Instruction
import Stagecraft.Proofs.Instruction.Stream
import Stagecraft.Proofs.Machine.Calls
import Stagecraft.Proofs.Machine.Drawing
import Stagecraft.Proofs.Machine.Effects
import Stagecraft.Proofs.Machine.Failing
import Stagecraft.Proofs.Machine.Formatted
import Stagecraft.Proofs.Machine.Frames
import Stagecraft.Proofs.Machine.History
import Stagecraft.Proofs.Machine.Invocation
import Stagecraft.Proofs.Machine.Run
import Stagecraft.Proofs.Machine.Told
import Stagecraft.Proofs.Machine.Waking
import Stagecraft.Proofs.Markup.Formed
import Stagecraft.Proofs.Markup.Paired
import Stagecraft.Proofs.Markup.Reread
import Stagecraft.Proofs.Markup.Restored
import Stagecraft.Proofs.Markup.Tagged
import Stagecraft.Proofs.Markup.Tags
import Stagecraft.Proofs.Meaning.Expression
import Stagecraft.Proofs.Meaning.Statement
import Stagecraft.Proofs.Module.Counted
import Stagecraft.Proofs.Module.CutOff
import Stagecraft.Proofs.Module.Guarded
import Stagecraft.Proofs.Module.Interned
import Stagecraft.Proofs.Module.Loaded
import Stagecraft.Proofs.Module.Remembered
import Stagecraft.Proofs.Module.Retained
import Stagecraft.Proofs.Module.Written
import Stagecraft.Proofs.Number.Integral
import Stagecraft.Proofs.Project.Accounted
import Stagecraft.Proofs.Project.Contract
import Stagecraft.Proofs.Project.Includes
import Stagecraft.Proofs.Project.Indexed
import Stagecraft.Proofs.Project.Linking
import Stagecraft.Proofs.Project.Normal
import Stagecraft.Proofs.Project.Parameters
import Stagecraft.Proofs.Project.Prevailing
import Stagecraft.Proofs.Project.Replaced
import Stagecraft.Proofs.Project.Routines
import Stagecraft.Proofs.Project.Scopes
import Stagecraft.Proofs.Project.Tables
import Stagecraft.Proofs.Project.Visible
import Stagecraft.Proofs.Safety.Allowed
import Stagecraft.Proofs.Safety.Bodies
import Stagecraft.Proofs.Safety.Builtin
import Stagecraft.Proofs.Safety.Code
import Stagecraft.Proofs.Safety.Launched
import Stagecraft.Proofs.Safety.Linked
import Stagecraft.Proofs.Safety.Machine
import Stagecraft.Proofs.Safety.Selection
import Stagecraft.Proofs.Safety.Thread
import Stagecraft.Proofs.Scenario.Answered
import Stagecraft.Proofs.Script.Accepted
import Stagecraft.Proofs.Script.Continued
import Stagecraft.Proofs.Script.Covered
import Stagecraft.Proofs.Script.Finished
import Stagecraft.Proofs.Script.Found
import Stagecraft.Proofs.Script.Fresh
import Stagecraft.Proofs.Script.Gathered
import Stagecraft.Proofs.Script.Genuine
import Stagecraft.Proofs.Script.Guarded
import Stagecraft.Proofs.Script.Lawful
import Stagecraft.Proofs.Script.Legible
import Stagecraft.Proofs.Script.Lexemes
import Stagecraft.Proofs.Script.Located
import Stagecraft.Proofs.Script.Marked
import Stagecraft.Proofs.Script.Names
import Stagecraft.Proofs.Script.Nested
import Stagecraft.Proofs.Script.Numerals
import Stagecraft.Proofs.Script.Ongoing
import Stagecraft.Proofs.Script.Parsed
import Stagecraft.Proofs.Script.Progress
import Stagecraft.Proofs.Script.Reading
import Stagecraft.Proofs.Script.Repeated
import Stagecraft.Proofs.Script.Reread
import Stagecraft.Proofs.Script.Roundtrip
import Stagecraft.Proofs.Script.Said
import Stagecraft.Proofs.Script.Scanned
import Stagecraft.Proofs.Script.Shapes
import Stagecraft.Proofs.Script.Speech
import Stagecraft.Proofs.Script.Spelled
import Stagecraft.Proofs.Script.Stable
import Stagecraft.Proofs.Script.Subtrees
import Stagecraft.Proofs.Script.Whole
import Stagecraft.Proofs.Script.Within
import Stagecraft.Proofs.Script.Writable
import Stagecraft.Proofs.Stage.Wildcard
import Stagecraft.Proofs.Text
import Stagecraft.Scenario.Basic
import Stagecraft.Scenario.Event
import Stagecraft.Scenario.Play
import Stagecraft.Scenario.Problem
import Stagecraft.Script.Parse
import Stagecraft.Script.Print
import Stagecraft.Script.Tree
import Stagecraft.Signature
import Stagecraft.Stage.Basic
import Stagecraft.Stage.Headless
import Stagecraft.Stage.Recording
import Stagecraft.Stage.Scripted
import Stagecraft.Text.Class
import Stagecraft.Text.Quoted
import Stagecraft.Text.Table
import Stagecraft.Text.Utf8
import Stagecraft.Text.Wildcard
import Stagecraft.Token.Basic
import Stagecraft.Token.Scan
import Stagecraft.Value.Basic
import Stagecraft.Value.Easing
import Stagecraft.Value.Json
import Stagecraft.Value.Operator
