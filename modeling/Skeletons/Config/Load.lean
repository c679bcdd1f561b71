import Skeletons.Config.Format
import Skeletons.Config.Toml
import Skeletons.Environment.File
import Skeletons.Setting.Path

namespace Skeletons.Config

structure Overrides where
  path : Option String := none
  workers : Option Nat := none
  depthLimit : Option Nat := none
  level : Option String := none

def Overrides.apply (overrides : Overrides) (config : Config) : Config where
  workers := overrides.workers.getD config.workers
  depthLimit := overrides.depthLimit.getD config.depthLimit
  level := overrides.level.getD config.level

def firstFile {m : Type → Type} [Monad m] (read : String → m (Option String)) :
    List (String × Option Format) → m (Option (Option Format × String))
  | [] => return none
  | (path, format) :: rest => do
    match ← read path with
    | some text => return some (format, text)
    | none => firstFile read rest

/-- Where the file at a path may be: at the path itself, or behind an ending that the path leaves out. The
    standard file is called `sinew`. -/
def candidates : Option String → List (String × Option Format)
  | none => [("sinew", some .toml), ("sinew.toml", some .toml)]
  | some path =>
    let ended := match stem? path with
      | none => []
      | some stem => Format.all.flatMap fun format =>
        format.endings.map fun ending => (stem ++ "." ++ ending, some format)
    (path, Format.ofPath? path) :: ended

/-- The settings of the file at a path, or of the standard file if there is no path. The standard file may
    be missing. -/
def fileSettings? {m : Type → Type} [Monad m] (read : String → m (Option String)) (path : Option String) :
    m (Option (List (String × Setting))) := do
  match ← firstFile read (candidates path) with
  | some (some format, text) => return format.read? text
  | some (none, _) => return none
  | none => return if path.isSome then none else some []

def pathVariable : String := "SINEW_CONFIG_PATH"

/-- What the names of variables with settings start with, in lower case. -/
def variableLead : String := "sinew_"

def withEnvironmentFile {m : Type → Type} [Monad m] (read : String → m (Option String))
    (environment : Environment) : m Environment := do
  match ← read ".env" with
  | some text => return environment.addFile text
  | none => return environment

def ofSources (standard : Config) (file fromEnvironment : List (String × Setting)) (overrides : Overrides) :
    Except ConfigError Config := do
  match ofSettings? standard ((Setting.table []).setAll file |>.setAll fromEnvironment) with
  | none => throw .invalid
  | some config =>
    let config := overrides.apply config
    config.validate
    return config

/-- Loads a configuration. Four sources are laid over one another: the standard values, a file,
    variables, and what the caller asks for. The variables are those of `withEnvironmentFile`. -/
def load {m : Type → Type} [Monad m] (read : String → m (Option String)) (environment : Environment)
    (standard : Config) (overrides : Overrides) : m (Except ConfigError Config) := do
  match ← fileSettings? read (overrides.path <|> environment.value? pathVariable) with
  | none => return .error .unreadable
  | some file => return ofSources standard file (environment.settings variableLead) overrides

end Skeletons.Config
