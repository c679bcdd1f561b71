import Skeletons.Ini
import Skeletons.Json.Reader
import Skeletons.Json5
import Skeletons.Ron
import Skeletons.Toml.Reader
import Skeletons.Yaml

namespace Skeletons.Config

inductive Format where
  | toml
  | json
  | yaml
  | ini
  | ron
  | json5
deriving DecidableEq

namespace Format

def all : List Format := [.toml, .json, .yaml, .ini, .ron, .json5]

def endings : Format → List String
  | .toml => ["toml"]
  | .json => ["json"]
  | .yaml => ["yaml", "yml"]
  | .ini => ["ini"]
  | .ron => ["ron"]
  | .json5 => ["json5"]

def read? (format : Format) (text : String) : Option (List (String × Setting)) :=
  match format with
  | .toml => (Toml.read? text).map Setting.ofTomlMembers
  | .json => (Json.read? text).map (fun json => Setting.ofJson json.canonical) >>= Setting.members?
  | .yaml => Yaml.read? text >>= Setting.members?
  | .ini => Ini.read? text
  | .ron => Ron.read? text >>= Setting.members?
  | .json5 => Json5.read? text >>= Setting.members?

end Format

def extension (path : String) : List Char :=
  let name := path.toList.reverse.takeWhile (· ≠ '/')
  match name.dropWhile (· ≠ '.') with
  | '.' :: _ :: _ => (name.takeWhile (· ≠ '.')).reverse
  | _ => []

def Format.ofPath? (path : String) : Option Format :=
  all.find? fun format => format.endings.any fun ending => ending.toList = extension path

/-- A path without the slashes and single dots at its end, so that an ending can follow. A path that does
    not end with a name has no such form. -/
def stem? (path : String) : Option String :=
  match (path.splitOn "/").reverse.dropWhile fun step => step = "" ∨ step = "." with
  | [] => none
  | ".." :: _ => none
  | steps => some ("/".intercalate steps.reverse)

end Skeletons.Config
