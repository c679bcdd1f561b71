import Skeletons.Setting
import Skeletons.Yaml.Lexer

namespace Skeletons.Yaml

/-! ## Scalars -/

def basedInteger? (base : Nat) (text : List Char) : Option Int := do
  let (negative, digits) := Decimal.signed text
  let n ← if digits.isEmpty then none else basedNumber? base digits
  let n := if negative then -(n : Int) else n
  if Toml.isInteger n then some n else none

def integer? (text : List Char) : Option Int :=
  let marked := match text with
    | '0' :: 'x' :: digits => basedInteger? 16 digits
    | '0' :: 'o' :: digits => basedInteger? 8 digits
    | '+' :: digits => basedInteger? 10 digits
    | _ => none
  marked <|> basedInteger? 10 text

/-- Whether a plain scalar is spelled like a real number: as infinity or no number is, or with a digit and
    like a decimal. -/
def isReal (text : String) : Bool :=
  [".inf", ".Inf", ".INF", "+.inf", "+.Inf", "+.INF", "-.inf", "-.Inf", "-.INF", ".nan", ".NaN", ".NAN"].contains
      text
    || (text.toList.any Char.isDigit && (Setting.readReal? text).isSome)

def real? (text : String) : Option Setting := (Setting.readReal? text).map .real

def plain? (text : String) : Option Setting :=
  match integer? text.toList with
  | some n => some (.integer n)
  | none =>
    if ["", "~", "null"].contains text then some .nothing
    else if text = "true" then some (.bool true)
    else if text = "false" then some (.bool false)
    else if isReal text then real? text
    else some (.text text)

def typeHandle : String := "tag:yaml.org,2002:"

def typed? (type text : String) : Option Setting :=
  match type with
  | "bool" => some (if text = "true" then .bool true else if text = "false" then .bool false else .nothing)
  | "int" => some ((basedInteger? 10 text.toList).elim .nothing .integer)
  | "float" => if isReal text then real? text else some .nothing
  | "null" => some .nothing
  | _ => some (.text text)

def scalar? (isPlain : Bool) (tag : Option (String × String)) (text : String) : Option Setting :=
  match tag with
  | none => if isPlain then plain? text else some (.text text)
  | some (handle, suffix) =>
    if isPlain ∧ handle = typeHandle then typed? suffix text else some (.text text)

/-! ## Tables -/

def nameOf? : Setting → Option (String × Bool)
  | .text s => some (s, false)
  | .integer n => some (toString n, true)
  | _ => none

def table? (pairs : List (Setting × Setting)) : Option Setting := do
  let names ← pairs.mapM fun (key, _) => nameOf? key
  if names.eraseDups.length < names.length then none
  else return .ofMembers ((names.map Prod.fst).zip (pairs.map Prod.snd))

/-! ## Nodes -/

/-- What is left of the tokens, and what the text has named so far. -/
structure Composer where
  tokens : List Token
  handles : List (String × String) := []
  anchors : List (String × Nat) := []
  finished : List (Nat × Setting) := []

abbrev Compose := StateT Composer Option

namespace Compose

def fail {α : Type} : Compose α := fun _ => none

def lift {α : Type} (a? : Option α) : Compose α := fun s => a?.map fun a => (a, s)

def peek : Compose Token := return (← get).tokens.headD .streamEnd

def skip : Compose Unit := modify fun s => { s with tokens := s.tokens.drop 1 }

def isNext (tokens : List Token) : Compose Bool := return tokens.contains (← peek)

def accepts (token : Token) : Compose Bool := do
  if (← peek) = token then
    skip
    return true
  else return false

def separator (isFirst : Bool) : Compose Unit := do
  unless isFirst do
    if !(← accepts .comma) then fail

/-- A tag with its handle resolved. A handle between exclamation marks has to be declared. -/
def resolve (handle suffix : String) : Compose (String × String) := do
  match (← get).handles.lookup handle with
  | some address => return (address, suffix)
  | none =>
    if handle = "!!" then return (typeHandle, suffix)
    else if 2 ≤ handle.length && handle.startsWith "!" && handle.endsWith "!" then fail
    else return (handle, suffix)

def tag? : Compose (Option (String × String)) := do
  match ← peek with
  | .tag handle suffix =>
    skip
    return some (← resolve handle suffix)
  | _ => return none

def anchor? : Compose (Option Nat) := do
  match ← peek with
  | .anchor name =>
    skip
    modifyGet fun s => (some s.anchors.length, { s with anchors := (name, s.anchors.length) :: s.anchors })
  | _ => return none

def properties : Compose (Option Nat × Option (String × String)) := do
  match ← anchor? with
  | some anchor => return (some anchor, ← tag?)
  | none =>
    match ← tag? with
    | some tag => return (← anchor?, some tag)
    | none => return (none, none)

/-- The node of an anchor. While it is unfinished it stands for nothing. -/
def aliased (name : String) : Compose Setting := do
  let s ← get
  match s.anchors.lookup name with
  | some anchor => return (s.finished.lookup anchor).getD .nothing
  | none => fail

mutual

/-- A node. In a block it may be a collection in block style, and a value of a mapping may be a sequence
    that is not indented. -/
def node (isBlock isValue : Bool) : Nat → Compose Setting
  | 0 => fail
  | limit + 1 => do
    match ← peek with
    | .alias name => do
      skip
      aliased name
    | _ => do
      let (anchor, tag) ← properties
      let empty : Compose Setting :=
        if anchor.isSome || tag.isSome then lift (scalar? true tag "") else fail
      let setting ← match ← peek, isBlock with
        | .item, _ => if isValue then Setting.list <$> bareItems limit else empty
        | .scalar isPlain text, _ => do
          skip
          lift (scalar? isPlain tag text)
        | .flowSequence, _ => do
          skip
          Setting.list <$> flowItems true limit
        | .flowMapping, _ => do
          skip
          lift (table? (← flowPairs true limit))
        | .blockSequence, true => do
          skip
          Setting.list <$> items limit
        | .blockMapping, true => do
          skip
          lift (table? (← pairs limit))
        | _, _ => empty
      match anchor with
      | some anchor => modify fun s => { s with finished := (anchor, setting) :: s.finished }
      | none => pure ()
      return setting

def nodeBefore (ends : List Token) (isValue : Bool) : Nat → Compose Setting
  | 0 => fail
  | limit + 1 => do
    if ← isNext ends then return .nothing else node true isValue limit

def flowNodeBefore (ends : List Token) : Nat → Compose Setting
  | 0 => fail
  | limit + 1 => do
    if ← isNext ends then return .nothing else node false false limit

def items : Nat → Compose (List Setting)
  | 0 => fail
  | limit + 1 => do
    if ← accepts .blockEnd then return []
    else if ← accepts .item then
      let first ← nodeBefore [.item, .blockEnd] false limit
      return first :: (← items limit)
    else fail

def bareItems : Nat → Compose (List Setting)
  | 0 => fail
  | limit + 1 => do
    if ← accepts .item then
      let first ← nodeBefore [.item, .key, .value, .blockEnd] false limit
      return first :: (← bareItems limit)
    else return []

def pairs : Nat → Compose (List (Setting × Setting))
  | 0 => fail
  | limit + 1 => do
    if ← accepts .blockEnd then return []
    else
      let ends : List Token := [.key, .value, .blockEnd]
      let isValue ← isNext [.value]
      let key ←
        if ← accepts .key then nodeBefore ends true limit
        else if isValue then pure .nothing
        else fail
      let value ← if ← accepts .value then nodeBefore ends true limit else pure .nothing
      return (key, value) :: (← pairs limit)

/-- The items of a sequence in flow style. A pair without braces is a mapping of its own. -/
def flowItems (isFirst : Bool) : Nat → Compose (List Setting)
  | 0 => fail
  | limit + 1 => do
    if ← accepts .flowSequenceEnd then return []
    separator isFirst
    if ← accepts .flowSequenceEnd then return []
    else
      let first ←
        if ← accepts .key then do
          let key ← flowNodeBefore [.value, .comma, .flowSequenceEnd] limit
          let value ←
            if ← accepts .value then flowNodeBefore [.comma, .flowSequenceEnd] limit else pure .nothing
          lift (table? [(key, value)])
        else node false false limit
      return first :: (← flowItems false limit)

def flowPairs (isFirst : Bool) : Nat → Compose (List (Setting × Setting))
  | 0 => fail
  | limit + 1 => do
    if ← accepts .flowMappingEnd then return []
    separator isFirst
    if ← accepts .flowMappingEnd then return []
    else
      let ends : List Token := [.comma, .flowMappingEnd]
      let isMarked ← accepts .key
      let isValue ← isNext [.value]
      let key ←
        if isMarked then flowNodeBefore (.value :: ends) limit
        else if isValue then pure .nothing
        else node false false limit
      let value ←
        if isMarked || isValue then
          if ← accepts .value then flowNodeBefore ends limit else pure .nothing
        else pure .nothing
      return (key, value) :: (← flowPairs false limit)

end

/-! ## Documents -/

def directives (isVersioned : Bool) : Nat → Compose Unit
  | 0 => return
  | limit + 1 => do
    match ← peek with
    | .versionDirective =>
      if isVersioned then fail
      skip
      directives true limit
    | .tagDirective handle address =>
      skip
      modify fun s => { s with handles := (handle, address) :: s.handles }
      directives isVersioned limit
    | _ => return

def skipDocumentEnds : Compose Unit := modify fun s =>
  { s with tokens := s.tokens.dropWhile (· = .documentEnd) }

/-- The only document of a stream. A stream without any is an empty table. -/
def document : Compose Setting := do
  skipDocumentEnds
  let s ← get
  let limit := 3 * s.tokens.length + 3
  if (← peek) = .streamEnd then return .table []
  else
    let setting ←
      if (← peek).isDocumentMark then do
        directives false limit
        if ← accepts .documentStart then
          if (← peek).isDocumentMark then pure .nothing else node true false limit
        else fail
      else node true false limit
    skipDocumentEnds
    if (← peek) = .streamEnd then return setting else fail

end Compose

def read? (text : String) : Option Setting := do
  let tokens ← Scan.tokens? text
  let (setting, _) ← Compose.document { tokens }
  return setting

end Skeletons.Yaml
