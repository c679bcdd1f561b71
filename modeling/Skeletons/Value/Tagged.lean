import Skeletons.Json.Decode

namespace Skeletons.Value

mutual

def toTagged : Value → Json
  | .null => .object [("t", .text "Null")]
  | .bool b => .object [("t", .text "Bool"), ("v", .bool b)]
  | .number x =>
    .object [("t", .text "Num"), ("v", if x.isFinite then .number (.real x) else .null)]
  | .text s => .object [("t", .text "Str"), ("v", .text s)]
  | .list items => .object [("t", .text "List"), ("v", .array (taggedItems items))]
  | .object members => .object [("t", .text "Obj"), ("v", .object (taggedMembers members))]

def taggedItems : List Value → List Json
  | [] => []
  | item :: rest => toTagged item :: taggedItems rest

def taggedMembers : List (String × Value) → List (String × Json)
  | [] => []
  | (name, value) :: rest => (name, toTagged value) :: taggedMembers rest

end

def tagNames : List String := ["Null", "Bool", "Num", "Str", "List", "Obj"]

def ofPlainContent : String → Option Json → Option Value
  | "Null", none => some .null
  | "Null", some .null => some .null
  | "Bool", some (.bool b) => some (.bool b)
  | "Num", some (.number n) => some (.number n.toNumber)
  | "Str", some (.text s) => some (.text s)
  | _, _ => none

def storedTag? : Json → Option String
  | .text name => some name
  | .object [(name, .null)] => some name
  | .object [(name, .object [])] => some name
  | _ => none

/-- The tag at the front of a stored array: a name, or its place in the row of names. -/
def placedTag? : Json → Option String
  | .text name => some name
  | .number (.integer n) => if 0 ≤ n then tagNames[n.toNat]? else none
  | _ => none

def storedParts? : Json → Option (String × Option Json)
  | .array [tag, content] => do return (← placedTag? tag, some content)
  | .object members =>
    match members.filter fun (name, _) => name = "t" ∨ name = "v" with
    | [("t", tag)] => do return (← storedTag? tag, none)
    | [("t", tag), ("v", content)] | [("v", content), ("t", tag)] => do
      return (← storedTag? tag, some content)
    | _ => none
  | _ => none

def ofStoredContent (item : Json → Option Value) (tag : String) (content : Option Json) : Option Value :=
  match tag, content with
  | "List", some (.array items) => do return .list (← items.mapM item)
  | "Obj", some (.object members) => do
    return .ofMembers (← members.mapM fun (name, json) => do return (name, ← item json))
  | tag, content => ofPlainContent tag content

/-- A stored value whose values nest at most `depth` deep. Content that comes before its tag is
    stored as a document until the tag is known. -/
def ofStored? : Nat → Json → Option Value
  | 0, _ => none
  | depth + 1, json => do
    let (tag, content) ← storedParts? json
    ofStoredContent (ofStored? depth) tag content

def ofContent (room : Nat) (item : Json.Form → Option Value) (tag : String) (content : Option Json.Form) :
    Option Value :=
  match tag, content with
  | "List", some (.array items) => do
    if room = 0 then none else return .list (← items.mapM item)
  | "Obj", some (.object members) => do
    if room = 0 then none
    else
      return .ofMembers (← (← Json.Form.named? members).mapM fun (name, form) => do
        return (name, ← item form))
  | tag, none => ofPlainContent tag none
  | tag, some form => do ofPlainContent tag (some (← form.toJson? Numeral.stepwise 0))

def tag? (room : Nat) : Json.Form → Option String
  | .object members => if room = 0 then none else Json.Form.alternative? (.object members)
  | form => form.alternative?

/-- A tagged form in which containers nest at most `room` deep. The tag of an array is a name. -/
def ofParts? (room : Nat) (item : Json.Form → Option Value) : Json.Form → Option Value
  | .array [.text (some tag), content] => ofContent room item tag (some content)
  | .object members => do
    let members ← Json.Form.named? members
    match members.filter fun (name, _) => name = "t" ∨ name = "v" with
    | [("t", tag)] => do ofContent room item (← tag? room tag) none
    | [("t", tag), ("v", content)] => do ofContent room item (← tag? room tag) (some content)
    | [("v", content), ("t", tag)] => do
      let stored ← content.toJson? Numeral.stepwise room
      ofStoredContent (ofStored? room) (← tag? room tag) (some stored)
    | _ => none
  | _ => none

/-- Reads a tagged form whose containers nest at most `depth` deep: an object that names the type of
    the value under `t` and holds its content under `v`. Other than plain JSON it keeps apart every
    type of value, numbers that are not finite excepted. -/
def ofTaggedWithin : Nat → Json.Form → Option Value
  | 0, _ => none
  | 1, form => ofParts? 0 (fun _ => none) form
  | depth + 2, form => ofParts? (depth + 1) (ofTaggedWithin depth) form

def ofTagged? (outer : Nat) (form : Json.Form) : Option Value :=
  ofTaggedWithin (Json.depthLimit - outer) form

end Skeletons.Value
