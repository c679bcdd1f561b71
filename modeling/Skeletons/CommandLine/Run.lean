import Skeletons.CommandLine
import Skeletons.Engine
import Skeletons.Json.Ordered
import Skeletons.Json.Printer
import Skeletons.LogFilter
import Skeletons.Samples

namespace Skeletons.CommandLine

inductive Line where
  | text (content : String)
  /-- How often a list was divided, beside the time that it took. -/
  | divisions (count : Nat)
  | message (said : LogFilter.Message)

def Line.render (elapsed : String) : Line → String
  | .text content => content
  | .divisions count => "divisions: " ++ toString count ++ ", elapsed: " ++ elapsed ++ "ms"
  | .message said => said.render true

structure Outcome where
  lines : List Line := []
  error : Option String := none

def Outcome.code (outcome : Outcome) : Nat := if outcome.error.isSome then 1 else 0

def Outcome.ofError (text : String) : Outcome := { error := some text }

def Outcome.after (lines : List Line) (outcome : Outcome) : Outcome :=
  { outcome with lines := lines ++ outcome.lines }

def failureText (failure : Failure) : String :=
  match failure.source? with
  | some source => failure.message ++ ": " ++ source
  | none => failure.message

def configErrorText (error : ConfigError) : String :=
  match error with
  | .notRendered => error.message ++ ": out-of-range value for u64 type"
  | _ => error.message

def render (value : Value) : String := (Json.ofValue value).render

def engineTarget : String := "sinew_core::engine"

def started (program : Program) : LogFilter.Message where
  level := .info
  target := engineTarget
  text := "execution started"
  fields := [("task_id", "<id>"), ("skeleton", program.rootText)]

def ended (program : Program) : Except Failure Value → LogFilter.Message
  | .ok _ => ⟨.info, engineTarget, "execution completed", [("skeleton", program.rootText)]⟩
  | .error failure =>
    ⟨.warn, engineTarget, "execution failed", [("skeleton", program.rootText), ("error", failure.message)]⟩

/-- Runs a program and goes on with its result, if there is one. The engine reports that the program starts and how
    it ends. What it has to say of a lower level than that, about single instructions, is left out. -/
def evaluate (config : Config) (skeleton : Skeleton) (input : Value) (next : Value → List Event → Outcome) : Outcome :=
  let program := Program.ofSkeleton skeleton
  let engine : Engine := ⟨config.workers, config.depthLimit⟩
  match engine.runAll program ampleBudget [input] with
  | some ([.ok value], events) =>
    (next value events).after [.message (started program), .message (ended program (.ok value))]
  | some ([.error failure], _) =>
    (Outcome.ofError (failureText failure)).after
      [.message (started program), .message (ended program (.error failure))]
  | _ => (Outcome.ofError "out of steps").after [.message (started program)]

def demonstrations : Build (List (String × Skeleton × Value)) := do
  let number (n : Int) : Value := .number (.ofInt n)
  let pipe ← Samples.doubleThenIncrement
  let fork ← Samples.sumOfSquares
  let choice ← Samples.absoluteValue
  return [("pipe(double, increment)(3)", pipe, number 3),
    ("fork(square x3, sum)([1,2,3])", fork, .list [number 1, number 2, number 3]),
    ("if(x<0, negate, identity)(-5)", choice, number (-5)),
    ("if(x<0, negate, identity)(5)", choice, number 5)]

def demonstrate (config : Config) : List (String × Skeleton × Value) → Outcome
  | [] => {}
  | (title, skeleton, input) :: rest =>
    evaluate config skeleton input fun value _ =>
      (demonstrate config rest).after [.text (title ++ " = " ++ render value)]

def isDivision (event : Event) : Bool :=
  event.isAt .after .condition && event.payload.same (.bool true)

def sortList (config : Config) (input : String) (threshold : Nat) : Outcome :=
  let complaint := "Input must be a JSON list"
  match Json.read? input with
  | none => .ofError complaint
  | some document =>
    let value := document.toOrdered.val
    match value with
    | .list _ =>
      evaluate config ((Samples.mergeSort threshold).run Build.firstId).1 value fun sorted events =>
        { lines := [.text (render sorted), .divisions (events.countP isDivision)] }
    | _ => .ofError (complaint ++ ", got " ++ value.typeName)

def printConfig (config : Config) : Outcome :=
  match config.toToml with
  | .ok document => { lines := (document.splitOn "\n").dropLast.map .text }
  | .error error => .ofError (configErrorText error)

def Command.perform (config : Config) : Command → Outcome
  | .demo => demonstrate config (demonstrations.run Build.firstId).1
  | .sort input threshold => sortList config input threshold
  | .showConfig => printConfig config

def filterVariable : String := "RUST_LOG"

/-- The filter of log messages. A variable that holds no filter is passed over. -/
def readFilter (environment : Environment) (config : Config) : Except LogFilter.Fault (List LogFilter.Directive) :=
  match (environment.value? filterVariable).map LogFilter.read with
  | some (.ok filter) => .ok filter
  | _ => LogFilter.read config.level

def plainVariable : String := "NO_COLOR"

def Outcome.admitted (filter : List LogFilter.Directive) (colors : Bool) (outcome : Outcome) : Outcome where
  lines := outcome.lines.filterMap fun
    | .message said => if LogFilter.admits filter said then some (.text (said.render colors)) else none
    | line => some line
  error := outcome.error

/-- Runs a command: loads the configuration, reads the filter and does the work. -/
def run {m : Type → Type} [Monad m] (read : String → m (Option String)) (environment : Environment)
    (standard : Config) (overrides : Config.Overrides) (command : Command) : m Outcome := do
  let environment ← Config.withEnvironmentFile read environment
  match ← Config.load read environment standard overrides with
  | .error error => return .ofError (configErrorText error)
  | .ok config =>
    match readFilter environment config with
    | .error fault => return .ofError fault.message
    | .ok filter =>
      let colors := (environment.value? plainVariable).all String.isEmpty
      return (command.perform config).admitted filter colors

end Skeletons.CommandLine
