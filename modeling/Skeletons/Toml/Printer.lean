import Skeletons.Text.Hexadecimal
import Skeletons.Toml

namespace Skeletons.Toml

inductive StringForm where
  | basic
  | literal
  | basicLines
  | literalLines
deriving DecidableEq

namespace StringForm

def delimiter : StringForm → List Char
  | .basic => ['"']
  | .literal => ['\'']
  | .basicLines => ['"', '"', '"']
  | .literalLines => ['\'', '\'', '\'']

def hasLines : StringForm → Bool
  | .basicLines | .literalLines => true
  | _ => false

def hasEscapes : StringForm → Bool
  | .basic | .basicLines => true
  | _ => false

end StringForm

def longestRun (mark : Char) (text : List Char) : Nat :=
  (text.foldl (fun (current, longest) c =>
    if c = mark then (current + 1, max longest (current + 1)) else (0, longest)) (0, 0)).2

def isControl (c : Char) : Bool := (c.toNat < 32 && c ≠ '\t' && c ≠ '\n') || c = '\x7f'

/-- The form that a text is written in: of the four the first one in which nothing needs an
    escape. -/
def formOf (text : List Char) : StringForm :=
  let controls := text.any isControl
  let lines := text.contains '\n'
  let backslash := text.contains '\\'
  let doubles := longestRun '"' text
  let singles := longestRun '\'' text
  if !controls && !backslash && doubles = 0 && !lines then .basic
  else if !controls && singles = 0 && !lines then .literal
  else if !controls && !backslash && doubles ≤ 2 then .basicLines
  else if !controls && singles ≤ 2 then .literalLines
  else if lines then .basicLines
  else .basic

def escapedCharacter (lines : Bool) (c : Char) : List Char :=
  if c = '\x08' then ['\\', 'b']
  else if c = '\t' then ['\\', 't']
  else if c = '\n' then (if lines then ['\n'] else ['\\', 'n'])
  else if c = '\x0c' then ['\\', 'f']
  else if c = '\r' then ['\\', 'r']
  else if c = '\\' then ['\\', '\\']
  else if isControl c then '\\' :: 'u' :: (hexDigits 4 c.toNat).map Char.toUpper
  else [c]

/-- The characters of a form with escapes. Of neighbouring double quotes, as many as the delimiter does not
    reach stay as they are and the next one is escaped; `run` counts them. -/
def escapeAll (lines : Bool) (run : Nat) : List Char → List Char
  | [] => []
  | c :: rest =>
    if c = '"' then
      if (if lines then 2 else 0) < run + 1 then '\\' :: '"' :: escapeAll lines 0 rest
      else '"' :: escapeAll lines (run + 1) rest
    else escapedCharacter lines c ++ escapeAll lines 0 rest

def quoted (s : String) : String :=
  let text := s.toList
  let form := formOf text
  let opening := if form.hasLines && text.contains '\n' then ['\n'] else []
  let content := if form.hasEscapes then escapeAll form.hasLines 0 text else text
  String.ofList (form.delimiter ++ opening ++ content ++ form.delimiter)

end Skeletons.Toml
