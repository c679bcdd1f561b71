import Skeletons.Environment
import Skeletons.Text.Blank
import Skeletons.Text.Letter
import Skeletons.Text.Reader

namespace Skeletons.Environment

inductive Place where
  | plain
  | blank
  | escaped
  | double
  | doubleEscaped
  | single
  | singleEscaped
  | comment
deriving DecidableEq

def Place.start (c : Char) : Place :=
  if c = '\\' then .escaped
  else if c = '"' then .double
  else if c = '\'' then .single
  else .plain

def Place.next (place : Place) (c : Char) : Place :=
  match place with
  | .plain => if isBlank c ∧ c ≠ '\n' ∧ c ≠ '\r' then .blank else .start c
  | .blank => if c = '#' then .comment else .start c
  | .escaped => .plain
  | .double => if c = '\\' then .doubleEscaped else if c = '"' then .plain else .double
  | .doubleEscaped => .double
  | .single => if c = '\\' then .singleEscaped else if c = '\'' then .plain else .single
  | .singleEscaped => .single
  | .comment => .comment

def scan (place : Place) : List Char → List Char × Place
  | [] => ([], place)
  | c :: rest =>
    match place.next c with
    | .comment => ([], .comment)
    | next =>
      let (kept, last) := scan next rest
      (c :: kept, last)

def brokenLines : List Char → List (List Char)
  | [] => []
  | c :: rest =>
    match c, brokenLines rest with
    | '\n', lines => ['\n'] :: lines
    | c, [] => [[c]]
    | c, line :: lines => (c :: line) :: lines

/-- Lines put together with those that continue them. `none` stands for the last one if it is cut off, and
    `before` is the part of a line that was read already. -/
def joinLines (before : List Char) (place : Place) : List (List Char) → List (Option (List Char))
  | [] => if place = .plain then [] else [none]
  | line :: rest =>
    let whole := before ++ line
    if (dropBlanks whole).head? = some '#' then joinLines [] .plain rest
    else
      let (kept, last) := scan place line
      match last with
      | .plain => some whole :: joinLines [] .plain rest
      | .comment => some (before ++ kept) :: joinLines [] .plain rest
      | last => joinLines whole last rest

inductive Quoting where
  | bare
  | double
  | single
  | escaped (quoted : Bool)
  | name (quoted : Bool) (sofar : List Char)
  | braced (quoted : Bool) (sofar : List Char)
  | ended

def Quoting.within (quoted : Bool) : Quoting := if quoted then .double else .bare

def named (environment : Environment) (name : List Char) : List Char :=
  ((environment.value? (String.ofList name)).getD "").toList

/-- The value that is written as a text, or `none` if a quote is missing or an escape is unknown. A name
    after a dollar sign takes the character after it with it, so that a quote behind it does not close. -/
def readValue (environment : Environment) : Quoting → List Char → Option (List Char)
  | .bare, [] | .ended, [] | .escaped false, [] => some []
  | .name false sofar, [] => some (named environment sofar)
  | _, [] => none
  | .ended, c :: rest =>
    if c = ' ' ∨ c = '\t' then readValue environment .ended rest
    else if c = '#' then some []
    else none
  | .escaped quoted, c :: rest =>
    if ['\\', '\'', '"', '$', ' '].contains c then
      (readValue environment (.within quoted) rest).map (c :: ·)
    else if c = 'n' then (readValue environment (.within quoted) rest).map ('\n' :: ·)
    else none
  | .single, c :: rest =>
    if c = '\'' then readValue environment .bare rest
    else (readValue environment .single rest).map (c :: ·)
  | .name quoted sofar, c :: rest =>
    if isWordCharacter c then readValue environment (.name quoted (sofar ++ [c])) rest
    else if c = '\x7b' ∧ sofar.isEmpty then readValue environment (.braced quoted []) rest
    else if c = '$' then
      (readValue environment (.name quoted []) rest).map (named environment sofar ++ ·)
    else (readValue environment (.within quoted) rest).map (named environment sofar ++ c :: ·)
  | .braced quoted sofar, c :: rest =>
    if c = '\x7d' then (readValue environment (.within quoted) rest).map (named environment sofar ++ ·)
    else readValue environment (.braced quoted (sofar ++ [c])) rest
  | .double, c :: rest =>
    if c = '$' then readValue environment (.name true []) rest
    else if c = '"' then readValue environment .bare rest
    else if c = '\\' then readValue environment (.escaped true) rest
    else (readValue environment .double rest).map (c :: ·)
  | .bare, c :: rest =>
    if c = '$' then readValue environment (.name false []) rest
    else if c = '\'' then readValue environment .single rest
    else if c = '"' then readValue environment .double rest
    else if c = '\\' then readValue environment (.escaped false) rest
    else if c = ' ' ∨ c = '\t' then readValue environment .ended rest
    else (readValue environment .bare rest).map (c :: ·)

def blanks : Reader Unit := do let _ ← Reader.takeWhile isBlank

def variableName : Reader String := do
  let first ← Reader.satisfy fun c => c.isAlpha || c = '_'
  let rest ← Reader.takeWhile fun c => c.isAlphanum || c = '_' || c = '.'
  return String.ofList (first :: rest)

def assignment (environment : Environment) : Reader (String × String) := do
  let name ← variableName
  blanks
  let name ←
    if ← Reader.accepts (Reader.char '=') then pure name
    else if name = "export" then do
      let name ← variableName
      blanks
      Reader.char '='
      pure name
    else Reader.fail
  blanks
  let text ← get
  set ([] : List Char)
  if text.head? = some '#' then return (name, "")
  else match readValue environment .bare text with
    | some value => return (name, String.ofList value)
    | none => Reader.fail

def addLines (environment : Environment) : List (Option (List Char)) → Environment
  | [] => environment
  | none :: _ => environment
  | some line :: rest =>
    let line := dropBlanks (dropBlanksRight line)
    if line.isEmpty ∨ line.head? = some '#' then addLines environment rest
    else match (assignment environment).readAll? line with
      | none => environment
      | some (name, value) =>
        if (environment.value? name).isSome then addLines environment rest
        else addLines (environment ++ [(name, value)]) rest

/-- Adds the variables of a file; those that are set already keep their values. A byte order mark in
    front is left out. -/
def addFile (environment : Environment) (text : String) : Environment :=
  let characters := match text.toList with
    | '\ufeff' :: rest => rest
    | characters => characters
  addLines environment (joinLines [] .plain (brokenLines characters))

end Skeletons.Environment
