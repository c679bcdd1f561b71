import Skeletons.Members
import Skeletons.Number

namespace Skeletons

/-- A value. That the members of its objects are in order is said by `Value.Ordered` and carried by
    `OrderedValue`. -/
inductive Value where
  | null
  | bool (value : Bool)
  | number (value : Number)
  | text (value : String)
  | list (items : List Value)
  | object (members : List (String × Value))
deriving Inhabited

namespace Value

def typeName : Value → String
  | .null => "null"
  | .bool _ => "bool"
  | .number _ => "number"
  | .text _ => "string"
  | .list _ => "list"
  | .object _ => "object"

def asNumber? : Value → Option Number
  | .number x => some x
  | _ => none

def asList? : Value → Option (List Value)
  | .list items => some items
  | _ => none

mutual

/-- Equality of values as programs see it: numbers compare numerically, so a NaN makes everything
    that holds it differ from itself. -/
def same : Value → Value → Bool
  | .null, .null => true
  | .bool a, .bool b => a == b
  | .number x, .number y => x.same y
  | .text s, .text t => s == t
  | .list xs, .list ys => sameItems xs ys
  | .object xs, .object ys => sameMembers xs ys
  | _, _ => false

def sameItems : List Value → List Value → Bool
  | [], [] => true
  | x :: xs, y :: ys => same x y && sameItems xs ys
  | _, _ => false

def sameMembers : List (String × Value) → List (String × Value) → Bool
  | [], [] => true
  | (name, x) :: xs, (other, y) :: ys => name == other && same x y && sameMembers xs ys
  | _, _ => false

end

end Value

def Value.ofMembers (members : List (String × Value)) : Value := .object (orderMembers members)

namespace Value

mutual

/-- Whether the members of every object in a value are in order. -/
def Ordered : Value → Prop
  | .list items => OrderedItems items
  | .object members => Ascending members ∧ OrderedMembers members
  | _ => True

def OrderedItems : List Value → Prop
  | [] => True
  | item :: rest => Ordered item ∧ OrderedItems rest

def OrderedMembers : List (String × Value) → Prop
  | [] => True
  | (_, value) :: rest => Ordered value ∧ OrderedMembers rest

end

theorem orderedMembers_iff {members : List (String × Value)} :
    OrderedMembers members ↔ ∀ member ∈ members, member.2.Ordered := by
  induction members with
  | nil => simp [OrderedMembers]
  | cons first rest ih => simp only [OrderedMembers, ih, List.forall_mem_cons]

end Value

/-- A value with the proof that its members are in order at any depth, as it is read from a document. -/
abbrev OrderedValue := { value : Value // value.Ordered }

end Skeletons
