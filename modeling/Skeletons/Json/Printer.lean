import Skeletons.Decimal.Shortest
import Skeletons.Json
import Skeletons.Text.Hexadecimal

namespace Skeletons

namespace Json

def escaped (c : Char) : List Char :=
  if c = '"' then ['\\', '"']
  else if c = '\\' then ['\\', '\\']
  else if c = '\x08' then ['\\', 'b']
  else if c = '\x0c' then ['\\', 'f']
  else if c = '\n' then ['\\', 'n']
  else if c = '\r' then ['\\', 'r']
  else if c = '\t' then ['\\', 't']
  else if c.toNat < 32 then '\\' :: 'u' :: hexDigits 4 c.toNat
  else [c]

def quoted (s : String) : String := String.ofList ('"' :: s.toList.flatMap escaped ++ ['"'])

/-- A decimal as a real number of JSON: positional with at least one place after the point while its
    leading digit stands between the fifth place after the point and the sixteenth before it, and
    scientific beyond. -/
def realText (d : Decimal) : String :=
  let isPositional := d.digits = 0 ∨ (-5 ≤ d.order ∧ d.order ≤ 15)
  String.ofList <|
    if isPositional then d.positional ++ (if 0 ≤ d.exponent then ['.', '0'] else [])
    else d.scientific

def numeralText : Numeral → String
  | .integer n => toString n
  | .real x => if x.isFinite then realText x.shortest else "null"

mutual

def render : Json → String
  | .null => "null"
  | .bool true => "true"
  | .bool false => "false"
  | .number n => numeralText n
  | .text s => quoted s
  | .array items => "[" ++ ",".intercalate (renderItems items) ++ "]"
  | .object members => "\x7b" ++ ",".intercalate (renderMembers members) ++ "\x7d"

def renderItems : List Json → List String
  | [] => []
  | item :: rest => render item :: renderItems rest

def renderMembers : List (String × Json) → List String
  | [] => []
  | (name, json) :: rest => (quoted name ++ ":" ++ render json) :: renderMembers rest

end

end Json

end Skeletons
