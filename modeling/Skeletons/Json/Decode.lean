import Skeletons.Json.Form

namespace Skeletons.Json

def ofWord (n : UInt64) : Json := .number (.integer n.toNat)

namespace Form

def named? (members : List (Option String × Form)) : Option (List (String × Form)) :=
  members.mapM fun (name, form) => name.map fun name => (name, form)

/-- The fields of a structure, in the order of the given names; a field that is missing is `none`. A
    structure is written as an object, whose unknown members are ignored whatever they hold, or as
    an array of its fields in order; no field may be given twice. -/
def fields? (names : List String) : Form → Option (List (Option Form))
  | .object members => do
    let members ← named? members
    names.mapM fun name =>
      match members.filterMap fun (other, form) => if other = name then some form else none with
      | [] => some none
      | [form] => some (some form)
      | _ => none
  | .array items =>
    if items.length ≤ names.length then
      some (items.map some ++ List.replicate (names.length - items.length) none)
    else none
  | _ => none

def word? : Form → Option UInt64
  | .number negative spelling =>
    match Numeral.whole? negative spelling with
    | some n => if 0 ≤ n then some (UInt64.ofNat n.toNat) else none
    | none => none
  | _ => none

def text? : Form → Option String
  | .text s => s
  | _ => none

def array? : Form → Option (List Form)
  | .array items => some items
  | _ => none

/-- The name of an alternative: by itself, or as the only member of an object, whose content is then
    null. -/
def alternative? : Form → Option String
  | .text name => name
  | .object [(name, .null)] => name
  | _ => none

end Form

end Skeletons.Json
