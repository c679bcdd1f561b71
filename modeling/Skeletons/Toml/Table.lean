import Skeletons.Toml
import Skeletons.Toml.Moment

namespace Skeletons.Toml

inductive Statement where
  | header (several : Bool) (path : List String) (key : String)
  | pair (path : List String) (key : String) (value : Toml)

inductive Node where
  | leaf (value : Toml)
  /-- A table that was only passed through on the way to another one is implicit; one that was passed
      through by a dotted key is dotted. -/
  | table (implicit dotted : Bool) (members : List (String × Node))
  | tables (latest : List (List (String × Node)))

abbrev Nodes := List (String × Node)

namespace Nodes

def replace (key : String) (node : Node) : Nodes → Nodes
  | [] => []
  | (other, held) :: rest =>
    if other = key then (key, node) :: rest else (other, held) :: replace key node rest

/-- Changes the table at the end of a path. Tables on the way are made where they are missing, and of an
    array of tables the latest counts. A dotted key does not enter tables that have a header or were
    given inline. The change learns whether the table is dotted. -/
def changeAt (byKey : Bool) (change : Bool → Nodes → Option Nodes) (dotted : Bool) :
    List String → Nodes → Option Nodes
  | [], members => change dotted members
  | key :: rest, members =>
    match members.lookup key with
    | none => do
      let inner ← changeAt byKey change byKey rest []
      return members ++ [(key, .table true byKey inner)]
    | some (.table implicit isDotted inner) =>
      if byKey && !implicit then none
      else do
        let inner ← changeAt byKey change isDotted rest inner
        return members.replace key (.table implicit isDotted inner)
    | some (.tables (latest :: earlier)) => do
      let latest ← changeAt byKey change false rest latest
      return members.replace key (.tables (latest :: earlier))
    | some _ => none

def insert (path : List String) (key : String) (value : Toml) (members : Nodes) : Option Nodes :=
  changeAt true (fun dotted members =>
    if dotted == path.isEmpty || (members.lookup key).isSome then none
    else some (members ++ [(key, .leaf value)])) false path members

/-- Opens the table of a header. A table that was passed through before moves to the end. -/
def openTable (path : List String) (key : String) (members : Nodes) : Option Nodes :=
  changeAt false (fun _ members =>
    match members.lookup key with
    | none => some (members ++ [(key, .table false false [])])
    | some (.table true false inner) =>
      some (members.filter (·.1 ≠ key) ++ [(key, .table false false inner)])
    | some _ => none) false path members

def openNext (path : List String) (key : String) (members : Nodes) : Option Nodes :=
  changeAt false (fun _ members =>
    match members.lookup key with
    | none => some (members ++ [(key, .tables [[]])])
    | some (.tables earlier) => some (members.replace key (.tables ([] :: earlier)))
    | some _ => none) false path members

end Nodes

/-- The name that the first member of a table has if the table stands for the moment that it spells. -/
def momentName : String := "$__toml_private_datetime"

mutual

def Node.finish? : Node → Option Toml
  | .leaf value => some value
  | .table _ _ members => finishTable? members
  | .tables latest => do return .array (← finishTables? latest).reverse

def finishTable? : List (String × Node) → Option Toml
  | [] => some (.table [])
  | (key, node) :: rest =>
    if key = momentName then
      match node with
      | .leaf (.text spelling) => (Moment.ofText? spelling).map .moment
      | _ => none
    else do return .table ((key, ← node.finish?) :: (← finishMembers? rest))

def finishMembers? : List (String × Node) → Option (List (String × Toml))
  | [] => some []
  | (key, node) :: rest => do return (key, ← node.finish?) :: (← finishMembers? rest)

def finishTables? : List (List (String × Node)) → Option (List Toml)
  | [] => some []
  | members :: rest => do return (← finishTable? members) :: (← finishTables? rest)

end

def inlineTable? (pairs : List (List String × String × Toml)) : Option Toml := do
  let members ← pairs.foldlM (fun (members : Nodes) (path, key, value) =>
    members.insert path key value) []
  finishTable? members

structure Draft where
  path : List String := []
  members : Nodes := []

def Draft.add (draft : Draft) : Statement → Option Draft
  | .header several path key => do
    let members ← if several then draft.members.openNext path key else draft.members.openTable path key
    return ⟨path ++ [key], members⟩
  | .pair path key value => do
    let members ← Nodes.changeAt false (fun _ members => members.insert path key value) false
      draft.path draft.members
    return { draft with members }

def document? (statements : List Statement) : Option (List (String × Toml)) := do
  let draft ← statements.foldlM Draft.add {}
  match ← finishTable? draft.members with
  | .table members => return members
  | _ => none

end Skeletons.Toml
