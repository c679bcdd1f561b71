import Skeletons.Json.Decode
import Skeletons.Task

namespace Skeletons

structure Config where
  workers : Nat
  depthLimit : Nat := defaultDepthLimit
  level : String := "info"
deriving DecidableEq

inductive ConfigError where
  /-- A file that is missing, or that is no document. -/
  | unreadable
  | invalid
  | noWorkers
  | noDepth
  /-- A number that the format of the file does not hold. -/
  | notRendered
deriving DecidableEq

def ConfigError.message : ConfigError → String
  | .unreadable => "Failed to read configuration"
  | .invalid => "Invalid configuration"
  | .noWorkers => "engine.workers must be at least 1"
  | .noDepth => "engine.max_depth must be at least 1"
  | .notRendered => "Failed to render configuration"

namespace Config

def standard (cores : Nat) : Config := { workers := cores }

/-- There has to be a worker and room for one split. -/
def validate (config : Config) : Except ConfigError Unit :=
  if config.workers = 0 then .error .noWorkers
  else if config.depthLimit = 0 then .error .noDepth
  else .ok ()

def toJson (config : Config) : Json :=
  .object [
    ("engine", .object [
      ("workers", .number (.integer config.workers)),
      ("max_depth", .number (.integer config.depthLimit))]),
    ("logging", .object [("level", .text config.level)])]

/-- Reads a document strictly: every field that is there has its type, and one that is missing takes its
    standard value. -/
def ofForm? (standard : Config) (form : Json.Form) : Option Config := do
  match ← form.fields? ["engine", "logging"] with
  | [engine, logging] =>
    let config ← match engine with
      | none => some standard
      | some engine =>
        match ← engine.fields? ["workers", "max_depth"] with
        | [workers, limit] =>
          let workers ← workers.elim (some standard.workers) fun n => n.word?.map UInt64.toNat
          let limit ← limit.elim (some standard.depthLimit) fun n => n.word?.map UInt64.toNat
          some { standard with workers, depthLimit := limit }
        | _ => none
    match logging with
    | none => return config
    | some logging =>
      match ← logging.fields? ["level"] with
      | [level] => return { config with level := ← level.elim (some standard.level) Json.Form.text? }
      | _ => none
  | _ => none

end Config

end Skeletons
