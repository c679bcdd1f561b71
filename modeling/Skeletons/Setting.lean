import Skeletons.Decimal.Shortest
import Skeletons.Json
import Skeletons.Text.Case
import Skeletons.Toml

namespace Skeletons

inductive Setting where
  | nothing
  | bool (value : Bool)
  | integer (value : Int)
  | real (value : Number)
  | text (value : String)
  | list (items : List Setting)
  | table (members : List (String × Setting))
deriving Inhabited

namespace Setting

def readInteger? (s : String) : Option Int :=
  let (negative, digits) := Decimal.signed s.toList
  if digits.isEmpty then none
  else (Decimal.digitsValue? digits).map fun n => if negative then -(n : Int) else n

/-- A count of at most sixty-four bits in base ten. It may have a plus sign and no minus sign. -/
def readCount? (s : String) : Option Nat :=
  if s.toList.head? = some '-' then none
  else match readInteger? s with
    | some n => if n.toNat ≤ Number.maxCount then some n.toNat else none
    | none => none

/-- A real number: digits with or without a point and a power of ten, or the name of infinity or of no
    number, with an optional sign. -/
def readReal? (s : String) : Option Number :=
  let (negative, unsigned) := Decimal.signed s.toList
  let word := String.ofList (unsigned.map lowered)
  if word = "inf" ∨ word = "infinity" then some (.ofMagnitude negative Number.infinityMagnitude)
  else if word = "nan" then some (.ofMagnitude negative Number.nan.magnitude)
  else
    let spelling := Decimal.Spelling.ofText unsigned
    if spelling.whole.isEmpty ∧ (spelling.fraction.getD []).isEmpty then none
    else (spelling.value? negative).map Decimal.toNumber

def realText (x : Number) : String :=
  if x.isNaN then "NaN"
  else if !x.isFinite then (if x.isNegative then "-inf" else "inf")
  else String.ofList x.shortest.positional

def ofVariable (s : String) : Setting :=
  let word := lowerCase s
  if word = "true" then .bool true
  else if word = "false" then .bool false
  else match (readInteger? s).filter Toml.isInteger, readReal? s with
    | some n, _ => .integer n
    | none, some x => .real x
    | none, none => .text s

mutual

def ofToml : Toml → Setting
  | .text s | .moment s => .text s
  | .integer n => .integer n
  | .real x => .real x
  | .bool b => .bool b
  | .array items => .list (ofTomlItems items)
  | .table members => .table (ofTomlMembers members)

def ofTomlItems : List Toml → List Setting
  | [] => []
  | item :: rest => ofToml item :: ofTomlItems rest

def ofTomlMembers : List (String × Toml) → List (String × Setting)
  | [] => []
  | (name, toml) :: rest => (name, ofToml toml) :: ofTomlMembers rest

end

mutual

/-- A whole number that TOML could not hold is taken for the nearest double. -/
def ofJson : Json → Setting
  | .null => .nothing
  | .bool b => .bool b
  | .number (.integer n) => if Toml.isInteger n then .integer n else .real (.ofInt n)
  | .number (.real x) => .real x
  | .text s => .text s
  | .array items => .list (ofJsonItems items)
  | .object members => .table (ofJsonMembers members)

def ofJsonItems : List Json → List Setting
  | [] => []
  | item :: rest => ofJson item :: ofJsonItems rest

def ofJsonMembers : List (String × Json) → List (String × Setting)
  | [] => []
  | (name, json) :: rest => (name, ofJson json) :: ofJsonMembers rest

end

/-- A setting as a count. A real number is rounded to the nearest one, a truth value counts one or
    nothing, and a text is a truth value or a count in words. -/
def count? : Setting → Option Nat
  | .integer n => if 0 ≤ n then some n.toNat else none
  | .real x => some x.toNearestCount
  | .bool b => some b.toNat
  | .text s =>
    let word := lowerCase s
    if ["true", "on", "yes"].contains word then some 1
    else if ["false", "off", "no"].contains word then some 0
    else readCount? s
  | _ => none

def text? : Setting → Option String
  | .text s => some s
  | .bool b => some (if b then "true" else "false")
  | .integer n => some (toString n)
  | .real x => some (realText x)
  | _ => none

def members : Setting → List (String × Setting)
  | .table members => members
  | _ => []

def members? : Setting → Option (List (String × Setting))
  | .table members => some members
  | _ => none

def setMember (name : String) (value : Setting) : List (String × Setting) → List (String × Setting)
  | [] => [(name, value)]
  | (other, held) :: rest =>
    if other = name then (name, value) :: rest else (other, held) :: setMember name value rest

def ofMembers (members : List (String × Setting)) : Setting :=
  .table (members.foldl (fun held (name, value) => setMember name value held) [])

mutual

/-- A setting laid over an older one. The members of a table are laid over the older table one by one, with
    their names in lower case; any other setting takes the place of the older one. -/
def overlay (old : Setting) : Setting → Setting
  | .table members =>
    match members, old with
    | [], .nothing => .table []
    | members, old => overlayMembers old members
  | new => new

def overlayMembers (old : Setting) : List (String × Setting) → Setting
  | [] => old
  | (name, new) :: rest =>
    let name := lowerCase name
    let held := (old.members.lookup name).getD .nothing
    overlayMembers (.table (setMember name (overlay held new) old.members)) rest

end

end Setting

end Skeletons
