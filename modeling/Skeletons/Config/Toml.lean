import Skeletons.Config
import Skeletons.Setting
import Skeletons.Toml.Printer
import Skeletons.Toml.Reader

namespace Skeletons.Config

def toToml (config : Config) : Except ConfigError String :=
  if Toml.isInteger config.workers && Toml.isInteger config.depthLimit then
    .ok ("[engine]\nworkers = " ++ toString config.workers ++ "\nmax_depth = "
      ++ toString config.depthLimit ++ "\n\n[logging]\nlevel = " ++ Toml.quoted config.level ++ "\n")
  else .error .notRendered

/-- The fields of a section of the settings, in the order of the given names. A section is a table, or a
    list of its fields in order; a section that is missing has no field. -/
def section? (root : Setting) (name : String) (fields : List String) :
    Option (List (Option Setting)) :=
  match root.members.lookup name with
  | none => some (fields.map fun _ => none)
  | some (.table members) => some (fields.map fun field => members.lookup field)
  | some (.list items) => some (List.range fields.length |>.map fun place => items[place]?)
  | some _ => none

/-- The configuration that settings describe. A field that is missing takes its standard value; `none` if
    one has the wrong form. -/
def ofSettings? (standard : Config) (root : Setting) : Option Config := do
  match ← section? root "engine" ["workers", "max_depth"], ← section? root "logging" ["level"] with
  | [workers, limit], [level] =>
    return {
      workers := ← workers.elim (some standard.workers) Setting.count?
      depthLimit := ← limit.elim (some standard.depthLimit) Setting.count?
      level := ← level.elim (some standard.level) Setting.text? }
  | _, _ => none

def ofToml? (standard : Config) (text : String) : Option Config := do
  let members ← Toml.read? text
  ofSettings? standard (.table (Setting.ofTomlMembers members))

end Skeletons.Config
