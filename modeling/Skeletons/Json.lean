import Skeletons.Decimal
import Skeletons.Value

namespace Skeletons

/-- A number of a JSON document: a whole number of at most sixty-four bits, or a double. -/
inductive Numeral where
  | integer (value : Int)
  | real (value : Number)
deriving DecidableEq, Inhabited

def Numeral.toNumber : Numeral → Number
  | .integer n => .ofInt n
  | .real x => x

/-- A JSON document. Members of objects stand as they were written. -/
inductive Json where
  | null
  | bool (value : Bool)
  | number (value : Numeral)
  | text (value : String)
  | array (items : List Json)
  | object (members : List (String × Json))
deriving Inhabited

namespace Json

mutual

/-- The document with the members of every object in the order of their names, each name once; of
    several members with one name the last is kept. -/
def canonical : Json → Json
  | .array items => .array (canonicalItems items)
  | .object members => .object (orderMembers (canonicalMembers members))
  | json => json

def canonicalItems : List Json → List Json
  | [] => []
  | item :: rest => canonical item :: canonicalItems rest

def canonicalMembers : List (String × Json) → List (String × Json)
  | [] => []
  | (name, json) :: rest => (name, canonical json) :: canonicalMembers rest

end

mutual

def toValue : Json → Value
  | .null => .null
  | .bool b => .bool b
  | .number n => .number n.toNumber
  | .text s => .text s
  | .array items => .list (toValues items)
  | .object members => .object (toMembers members)

def toValues : List Json → List Value
  | [] => []
  | item :: rest => toValue item :: toValues rest

def toMembers : List (String × Json) → List (String × Value)
  | [] => []
  | (name, json) :: rest => (name, toValue json) :: toMembers rest

end

mutual

/-- The document of a value. A number that is not finite becomes null. -/
def ofValue : Value → Json
  | .null => .null
  | .bool b => .bool b
  | .number x => if x.isFinite then .number (.real x) else .null
  | .text s => .text s
  | .list items => .array (ofValues items)
  | .object members => .object (ofMembers members)

def ofValues : List Value → List Json
  | [] => []
  | item :: rest => ofValue item :: ofValues rest

def ofMembers : List (String × Value) → List (String × Json)
  | [] => []
  | (name, value) :: rest => (name, ofValue value) :: ofMembers rest

end

def membersNamed (name : String) (members : List (String × Json)) : List Json :=
  members.filterMap fun (other, json) => if other = name then some json else none

end Json

end Skeletons
