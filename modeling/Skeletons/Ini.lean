import Skeletons.Setting
import Skeletons.Text.Blank
import Skeletons.Text.Hexadecimal
import Skeletons.Text.Reader

namespace Skeletons.Ini

open Reader (char satisfy peek? fail)

inductive Statement where
  | head (name : String)
  | pair (key value : String)

def codePoint : Reader Char := do
  let text ← Reader.takeExactly 4 fun _ => true
  let digits := match text with
    | '+' :: digits => digits
    | digits => digits
  match hexCharacter? digits with
  | some c => return c
  | none => fail

/-- What a backslash and the characters after it stand for. A line break after it is left out. -/
def escape : Reader (List Char) := do
  match ← satisfy fun _ => true with
  | '0' => return ['\x00']
  | 'a' => return ['\x07']
  | 'b' => return ['\x08']
  | 't' => return ['\t']
  | 'r' => return ['\r']
  | 'n' => return ['\n']
  | '\n' => return []
  | 'x' => return [← codePoint]
  | c => return [c]

def textTo (ends : Char → Bool) : Reader (List Char) := do
  let limit := (← get).length
  let pieces ← Reader.many piece limit
  match ← peek? with
  | some c => if ends c then return pieces.flatten else fail
  | none => return pieces.flatten
where
  piece : Reader (List Char) := do
    let c ← satisfy fun c => !ends c
    if c = '\\' then escape else return [c]

def textBetween (first last : Char) : Reader (List Char) := do
  char first
  let text ← textTo (· = last)
  char last
  return text

def isLineBreak (c : Char) : Bool := c = '\n' || c = '\r'

/-- The rest of a value: parts in quotes, and then what stands on the line without the blanks at its end.
    The blanks in front of it are left out too if it is the first part. -/
def valueParts (isFirst : Bool) : Nat → Reader (List Char)
  | 0 => return []
  | limit + 1 => do
    match ← peek? with
    | some '"' => return (← textBetween '"' '"') ++ (← valueParts false limit)
    | some '\'' => return (← textBetween '\'' '\'') ++ (← valueParts false limit)
    | _ =>
      let text ← textTo isLineBreak
      return dropBlanksRight (if isFirst then dropBlanks text else text)

def value : Reader (List Char) := do
  let _ ← Reader.takeWhile fun c => isBlank c && !isLineBreak c
  let limit := (← get).length + 1
  valueParts true limit

def isMark (c : Char) : Bool := c = '=' || c = ':'

def trimmed (text : List Char) : List Char := dropBlanksRight (dropBlanks text)

def pair : Reader Statement := do
  let key := trimmed (← textTo isMark)
  let _ ← satisfy isMark
  if key.isEmpty then fail else return .pair (String.ofList key) (String.ofList (← value))

/-- Statements up to the end of the text. A comment takes a whole line; `isLineStart` tells whether one can
    start here. -/
def statements (isLineStart : Bool) : Nat → Reader (List Statement)
  | 0 => return []
  | limit + 1 => do
    let blanks ← Reader.takeWhile isBlank
    let isLineStart := if blanks.isEmpty then isLineStart else blanks.getLast? = some '\n'
    match ← peek? with
    | none => return []
    | some c =>
      if c = ';' ∨ c = '#' then
        if isLineStart then
          let _ ← Reader.takeWhile (· ≠ '\n')
          let _ ← Reader.accepts (char '\n')
          statements true limit
        else fail
      else if c = '[' then
        let name := trimmed (← textBetween '[' ']')
        return .head (String.ofList name) :: (← statements false limit)
      else
        let statement ← pair
        return statement :: (← statements false limit)

structure Draft where
  current : Option String := none
  members : List (String × Setting) := []

/-- Adds a statement. A section that is opened again is empty again; of several values of a key the last
    one counts. -/
def Draft.add (draft : Draft) : Statement → Draft
  | .head name => ⟨some name, Setting.setMember name (.table []) draft.members⟩
  | .pair key value =>
    match draft.current with
    | none => { draft with members := Setting.setMember key (.text value) draft.members }
    | some name =>
      let held := (draft.members.lookup name).getD .nothing
      let inner := Setting.setMember key (.text value) held.members
      { draft with members := Setting.setMember name (.table inner) draft.members }

def read? (text : String) : Option (List (String × Setting)) := do
  let characters := text.toList
  let statements ← (statements true (characters.length + 1)).readAll? characters
  return (statements.foldl Draft.add {}).members

end Skeletons.Ini
