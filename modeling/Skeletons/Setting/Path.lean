import Skeletons.Setting
import Skeletons.Text.Reader

namespace Skeletons.Setting

/-- One step of a path: to a member of a table or to an item of a list. A negative place counts from the
    end of the list. Places are whole numbers of sixty-four bits. -/
inductive Step where
  | member (name : String)
  | item (place : Int)

namespace Step

def isNameCharacter (c : Char) : Bool :=
  c.isAlphanum || c = ' ' || c = '_' || c = '-'

def readName : Reader Step := return .member (String.ofList (← Reader.takeWhile1 isNameCharacter))

def readPlace : Reader Step := do
  Reader.char '['
  let _ ← Reader.takeWhile isSpace
  let negative ← Reader.accepts (Reader.char '-')
  let digits ← Reader.takeWhile1 Char.isDigit
  let _ ← Reader.takeWhile isSpace
  Reader.char ']'
  match (Decimal.digitsValue? digits).map fun n => if negative then -(n : Int) else n with
  | some place => if Toml.isInteger place then return .item place else Reader.fail
  | none => Reader.fail
where
  isSpace (c : Char) : Bool := c = ' ' || c = '\t'

def readNext : Reader Step := (do Reader.char '.'; readName) <|> readPlace

end Step

/-- The path that a name spells. A name that spells none is a single step. -/
def pathOf (name : String) : List Step :=
  let path : Reader (List Step) := do
    let first ← Step.readName
    let limit := (← get).length
    return first :: (← Reader.many Step.readNext limit)
  (path.readAll? name.toList).getD [.member name]

/-- A list with a change at one place. It is filled up to the place with nothing; a place in front of its
    first item changes nothing. -/
def changeItem (place : Int) (change : Setting → Setting) (items : List Setting) : List Setting :=
  let place := if place < 0 then place + items.length else place
  if place < 0 then items
  else
    let padding := List.replicate (place.toNat + 1 - items.length) Setting.nothing
    (items ++ padding).modify place.toNat change

/-- Lays a setting over what stands at the end of a path. What stands in the way of the path, because it
    is no table or no list, is replaced. -/
def setAt (new : Setting) : List Step → Setting → Setting
  | [], old => old.overlay new
  | .member name :: rest, old =>
    let name := lowerCase name
    let held := (old.members.lookup name).getD .nothing
    .table (setMember name (setAt new rest held) old.members)
  | .item place :: rest, old =>
    let items := match old with
      | .list items => items
      | _ => []
    .list (changeItem place (setAt new rest) items)

def setAll (old : Setting) (named : List (String × Setting)) : Setting :=
  named.foldl (fun old (name, new) => setAt new (pathOf name) old) old

end Skeletons.Setting
