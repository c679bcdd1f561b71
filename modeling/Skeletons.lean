import Skeletons.CommandLine
import Skeletons.CommandLine.Run
import Skeletons.Config
import Skeletons.Config.Format
import Skeletons.Config.Load
import Skeletons.Config.Toml
import Skeletons.Decimal
import Skeletons.Decimal.Shortest
import Skeletons.Decimal.Stepwise
import Skeletons.Digest.Sha256
import Skeletons.Engine
import Skeletons.Engine.Job
import Skeletons.Environment
import Skeletons.Environment.File
import Skeletons.Event
import Skeletons.Event.Record
import Skeletons.Failure
import Skeletons.Ini
import Skeletons.Instruction
import Skeletons.Instruction.Interpret
import Skeletons.Instruction.Routine
import Skeletons.Json
import Skeletons.Json.Decode
import Skeletons.Json.Form
import Skeletons.Json.Ordered
import Skeletons.Json.Printer
import Skeletons.Json.Reader
import Skeletons.Json5
import Skeletons.Listener.Registry
import Skeletons.Listener.Script
import Skeletons.LogFilter
import Skeletons.LogFilter.Pattern
import Skeletons.Main
import Skeletons.Members
import Skeletons.Muscle
import Skeletons.Number
import Skeletons.Number.Rounding
import Skeletons.Program
import Skeletons.Proofs.Account
import Skeletons.Proofs.Engine.Gathering
import Skeletons.Proofs.Engine.Job
import Skeletons.Proofs.Engine.Schedule
import Skeletons.Proofs.Engine.Work
import Skeletons.Proofs.Process
import Skeletons.Proofs.Process.Ending
import Skeletons.Proofs.Process.Iterate
import Skeletons.Proofs.Process.Outcome
import Skeletons.Proofs.Program
import Skeletons.Proofs.Run.Append
import Skeletons.Proofs.Run.Behaviour
import Skeletons.Proofs.Run.Divide
import Skeletons.Proofs.Run.Instruction
import Skeletons.Proofs.Run.Loop
import Skeletons.Proofs.Run.Split
import Skeletons.Proofs.Skeleton.Behaviour
import Skeletons.Proofs.Skeleton.Compile
import Skeletons.Proofs.Skeleton.Evaluation
import Skeletons.Proofs.Skeleton.Outcome
import Skeletons.Proofs.Skeleton.Simulation
import Skeletons.Proofs.Stack.Retag
import Skeletons.Proofs.Stack.Sound
import Skeletons.Proofs.Task.Alone
import Skeletons.Proofs.Task.Places
import Skeletons.Proofs.Task.Sound
import Skeletons.RecursionPath
import Skeletons.Ron
import Skeletons.Run
import Skeletons.Samples
import Skeletons.Setting
import Skeletons.Setting.Path
import Skeletons.Skeleton
import Skeletons.Skeleton.Builder
import Skeletons.Task
import Skeletons.Task.Session
import Skeletons.Text.Blank
import Skeletons.Text.Case
import Skeletons.Text.Hexadecimal
import Skeletons.Text.Letter
import Skeletons.Text.Reader
import Skeletons.Timestamp
import Skeletons.Toml
import Skeletons.Toml.Moment
import Skeletons.Toml.Printer
import Skeletons.Toml.Reader
import Skeletons.Toml.Table
import Skeletons.Trace
import Skeletons.Trace.Record
import Skeletons.Value
import Skeletons.Value.Tagged
import Skeletons.Yaml
import Skeletons.Yaml.Lexer
import Skeletons.Yaml.Scalar
import Skeletons.Yaml.Scan
import Skeletons.Yaml.Token
import Skeletons.Proofs.Instruction.Routine
import Skeletons.Proofs.Instruction.Effect
import Skeletons.Proofs.Stack.Everywhere
import Skeletons.Proofs.Task.Lineage
import Skeletons.Proofs.Task.Failing
import Skeletons.Proofs.Stack.Counter
import Skeletons.Proofs.Skeleton.Nodes
import Skeletons.Proofs.Skeleton.Total
import Skeletons.Proofs.Program.Halting
import Skeletons.Proofs.Stack.Place
import Skeletons.Proofs.Program.Nesting
import Skeletons.Proofs.Stack.Throughout
import Skeletons.Proofs.Task.Calls
import Skeletons.Proofs.Program.Merging
import Skeletons.Proofs.Event.Branches
import Skeletons.Proofs.Process.Branches
import Skeletons.Proofs.Skeleton.Branches
import Skeletons.Proofs.Program.Branches
import Skeletons.Proofs.Event.Brackets
import Skeletons.Proofs.Process.Brackets
import Skeletons.Proofs.Program.Brackets
import Skeletons.Proofs.Stack.Retrace
import Skeletons.Proofs.Run.Untraced
import Skeletons.Proofs.Listener.Attended
import Skeletons.Proofs.Task.Continuation
import Skeletons.Proofs.Stack.Coherent
import Skeletons.Proofs.Program.Coherence
import Skeletons.Proofs.Listener.Shelf
import Skeletons.Proofs.Listener.Roll
import Skeletons.Proofs.Listener.Chronicle
import Skeletons.Proofs.Instruction.Origin
import Skeletons.Proofs.Stack.Origin
import Skeletons.Proofs.Stack.Raised
import Skeletons.Proofs.Program.Hearing
import Skeletons.Proofs.Engine.Workshop
import Skeletons.Proofs.Run.Limit
import Skeletons.Proofs.Skeleton.Cut
import Skeletons.Proofs.Number.Order
import Skeletons.Proofs.Program.Outcome
import Skeletons.Proofs.Program.Pipeline
import Skeletons.Proofs.Samples.MergeSort
import Skeletons.Proofs.Stack.Traces
import Skeletons.Proofs.Instruction.Splitting
import Skeletons.Proofs.Run.Course
import Skeletons.Proofs.Samples.Divisions
import Skeletons.Proofs.Process.Reports
import Skeletons.Proofs.Skeleton.Inside
import Skeletons.Proofs.Event.Recursion
import Skeletons.Proofs.Process.Recursion
import Skeletons.Proofs.Program.Recursion
import Skeletons.Proofs.RecursionPath
import Skeletons.Proofs.Stack.Copies
import Skeletons.Proofs.Value
import Skeletons.Proofs.Number.Nearest
import Skeletons.Proofs.Json
