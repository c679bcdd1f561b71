import Skeletons.Config.Load

namespace Skeletons.CommandLine

inductive Command where
  | demo
  | sort (input : String) (threshold : Nat)
  | showConfig

inductive Topic where
  | program
  | demo
  | sort
  | showConfig
  | help
deriving DecidableEq

inductive Request where
  | run (overrides : Config.Overrides) (command : Command)
  | help (topic : Topic)

inductive UsageError where
  | unexpected (argument : String)
  | noValue (option : String)
  | badValue (option value : String)
  | repeated (option : String)
  | required (option : String)
  | noCommand
deriving DecidableEq

def UsageError.message : UsageError → String
  | .unexpected argument => "unexpected argument '" ++ argument ++ "'"
  | .noValue option => "a value is required for '" ++ option ++ "'"
  | .badValue option value => "invalid value '" ++ value ++ "' for '" ++ option ++ "'"
  | .repeated option => "'" ++ option ++ "' cannot be used multiple times"
  | .required option => "'" ++ option ++ "' is required"
  | .noCommand => "a command is required"

/-! ## Options -/

structure Flag where
  name : String
  placeholder : String
  purpose : String
  takes : String → Bool := fun _ => true

def isCount (text : String) : Bool := (Setting.readCount? text).isSome

def configOption : Flag :=
  ⟨"--config", "CONFIG", "Path to config file (overrides default search)", fun path => !path.isEmpty⟩

def workersOption : Flag :=
  ⟨"--workers", "WORKERS", "Number of workers (overrides config file and env vars)", isCount⟩

def levelOption : Flag :=
  ⟨"--log-level", "LOG_LEVEL", "Log filter, e.g. \"debug\" or \"sinew_core=trace\"", fun _ => true⟩

def inputOption : Flag := ⟨"--input", "INPUT", "Input list, e.g. \"[5, 3, 9, 1]\"", fun _ => true⟩

def thresholdOption : Flag :=
  ⟨"--threshold", "THRESHOLD", "Lists of at most this many elements are sorted directly [default: 1]", isCount⟩

def globalOptions : List Flag := [configOption, workersOption, levelOption]

def sortOptions : List Flag := [configOption, inputOption, thresholdOption, workersOption, levelOption]

abbrev Given := List (String × String)

inductive Ending where
  | nothing
  | help
  | word (word : String) (rest : List String)

def asksForHelp (argument : String) : Bool :=
  argument = "--help" || ['-', 'h'].isPrefixOf argument.toList

def looksLikeOption (argument : String) : Bool :=
  argument.toList.head? = some '-' && argument ≠ "-"

def splitOption (argument : String) : String × Option String :=
  let text := argument.toList
  let name := text.takeWhile (· ≠ '=')
  (String.ofList name, if name.length < text.length then some (String.ofList (text.drop (name.length + 1))) else none)

def addOption (known : List Flag) (name value : String) (given : Given) : Except UsageError Given :=
  match known.find? fun option => option.name = name with
  | none => .error (.unexpected name)
  | some option =>
    if (given.lookup name).isSome then .error (.repeated name)
    else if option.takes value then .ok (given ++ [(name, value)])
    else .error (.badValue name value)

/-- Takes options up to the first argument that is none. After two hyphens no options follow. -/
def readOptions (known : List Flag) (given : Given) : List String → Except UsageError (Given × Ending)
  | [] => .ok (given, .nothing)
  | argument :: rest =>
    if asksForHelp argument then .ok (given, .help)
    else if argument = "--" then
      match rest with
      | [] => .ok (given, .nothing)
      | extra :: _ => .error (.unexpected extra)
    else if !looksLikeOption argument then .ok (given, .word argument rest)
    else
      match splitOption argument with
      | (name, some value) => do readOptions known (← addOption known name value given) rest
      | (name, none) =>
        if known.all fun option => option.name ≠ name then .error (.unexpected name)
        else
          match rest with
          | [] => .error (.noValue name)
          | value :: rest =>
            if looksLikeOption value then .error (.noValue name)
            else do readOptions known (← addOption known name value given) rest

/-! ## Requests -/

def overridesOf (given : Given) : Config.Overrides where
  path := given.lookup "--config"
  workers := given.lookup "--workers" >>= Setting.readCount?
  level := given.lookup "--log-level"

/-- The options of a command, which no word follows; `none` if help is asked for. An option behind the
    command goes before one in front of it. -/
def commandOptions (known : List Flag) (given : Given) (rest : List String) :
    Except UsageError (Option Given) := do
  match ← readOptions known [] rest with
  | (more, .nothing) => return some (more ++ given)
  | (_, .help) => return none
  | (_, .word word _) => throw (.unexpected word)

def commandOf (word : String) (given : Given) : Except UsageError Command :=
  match word with
  | "demo" => .ok .demo
  | "config" => .ok .showConfig
  | "dac" =>
    match given.lookup "--input" with
    | none => .error (.required "--input")
    | some input =>
      .ok (.sort input ((given.lookup "--threshold" >>= Setting.readCount?).getD 1))
  | _ => .error (.unexpected word)

def topics : List (String × Topic) :=
  [("demo", .demo), ("dac", .sort), ("config", .showConfig), ("help", .help)]

def topicOf : List String → Except UsageError Topic
  | [] => .ok .program
  | [word] => ((topics.lookup word).map .ok).getD (.error (.unexpected word))
  | _ :: extra :: _ => .error (.unexpected extra)

def read (arguments : List String) : Except UsageError Request := do
  match ← readOptions globalOptions [] arguments with
  | (_, .nothing) => throw .noCommand
  | (_, .help) => return .help .program
  | (given, .word word rest) =>
    match topics.lookup word with
    | none | some .program => throw (.unexpected word)
    | some .help => return .help (← topicOf rest)
    | some topic =>
      match ← commandOptions (if topic = .sort then sortOptions else globalOptions) given rest with
      | none => return .help topic
      | some given => return .run (overridesOf given) (← commandOf word given)

/-! ## Help -/

def Topic.about : Topic → String
  | .program => "Sinew - parallel skeletons over a worker pool"
  | .demo => "Run the pipe, fork and conditional sample programs"
  | .sort => "Sort a JSON list of numbers with a divide-and-conquer merge sort"
  | .showConfig => "Print the effective configuration"
  | .help => "Print this message or the help of the given subcommand(s)"

def Topic.usage : Topic → String
  | .program => "[OPTIONS] <COMMAND>"
  | .demo => "demo [OPTIONS]"
  | .sort => "dac [OPTIONS] --input <INPUT>"
  | .showConfig => "config [OPTIONS]"
  | .help => "help [COMMAND]..."

def helpRow (width : Nat) (term purpose : String) : String :=
  term ++ String.ofList (List.replicate (width - term.length) ' ') ++ purpose

def optionRows (options : List Flag) : List String :=
  ["", "Options:"]
    ++ options.map (fun option =>
      helpRow 31 ("      " ++ option.name ++ " <" ++ option.placeholder ++ ">") option.purpose)
    ++ [helpRow 31 "  -h, --help" "Print help"]

def Topic.rows : Topic → List String
  | .program =>
    ["", "Commands:"] ++ topics.map (fun (name, topic) => helpRow 10 ("  " ++ name) topic.about)
      ++ optionRows globalOptions
  | .demo | .showConfig => optionRows globalOptions
  | .sort => optionRows sortOptions
  | .help => ["", "Arguments:", "  [COMMAND]...  Print help for the subcommand(s)"]

def helpLines (topic : Topic) : List String :=
  [topic.about, "", "Usage: sinew " ++ topic.usage] ++ topic.rows

end Skeletons.CommandLine
