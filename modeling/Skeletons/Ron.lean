import Skeletons.Setting
import Skeletons.Text.Hexadecimal
import Skeletons.Text.Reader

namespace Skeletons.Ron

open Reader (char literal satisfy takeWhile takeWhile1 accepts maybe peek? fail)

/-! ## Blanks -/

def isSpace (c : Char) : Bool := c = ' ' || c = '\t' || c = '\n' || c = '\r'

def commentEnd (nested : Nat) : Nat → Reader Unit
  | 0 => fail
  | limit + 1 => do
    if ← accepts (literal ['*', '/']) then
      match nested with
      | 0 => return
      | nested + 1 => commentEnd nested limit
    else if ← accepts (literal ['/', '*']) then commentEnd (nested + 1) limit
    else
      let _ ← satisfy fun _ => true
      commentEnd nested limit

def comment : Reader Unit := do
  char '/'
  if ← accepts (char '/') then
    let _ ← takeWhile (· ≠ '\n')
  else
    char '*'
    let limit := (← get).length + 1
    commentEnd 0 limit

/-- Blanks and comments. A slash that starts no comment is left for what follows to fail at. -/
def blanks : Reader Unit := do
  let limit := (← get).length
  let _ ← Reader.many (comment <|> do let _ ← satisfy isSpace) limit

def comma : Reader Bool := do
  blanks
  if ← accepts (char ',') then
    blanks
    return true
  else return false

/-! ## Names -/

def isNameStart (c : Char) : Bool := c.isAlpha || c = '_'

def isNamePart (c : Char) : Bool := isNameStart c || c.isDigit

def isMarkedPart (c : Char) : Bool := isNamePart c || c = '.' || c = '+' || c = '-'

/-- A name: letters, digits and underscores, or more than these behind the mark `r#`. -/
def name : Reader String := do
  let text ← get
  match text with
  | 'r' :: '"' :: _ => fail
  | 'r' :: '#' :: rest => do
    set rest
    return String.ofList (← takeWhile1 isMarkedPart)
  | _ => do
    let first ← satisfy isNameStart
    let rest ← takeWhile isNamePart
    if (← peek?).any isMarkedPart then fail else return String.ofList (first :: rest)

def word (word : List Char) : Reader Unit := do
  literal word
  if (← peek?).any isNamePart then fail

/-! ## Texts -/

def escape : Reader Char := do
  match ← satisfy fun _ => true with
  | '\'' => return '\''
  | '"' => return '"'
  | '\\' => return '\\'
  | 'n' => return '\n'
  | 'r' => return '\r'
  | 't' => return '\t'
  | '0' => return '\x00'
  | 'x' => code (← Reader.takeExactly 2 fun c => (hexValue? c).isSome)
  | 'u' => do
    char '\x7b'
    let digits ← takeWhile1 fun c => (hexValue? c).isSome
    char '\x7d'
    if digits.length ≤ 6 then code digits else fail
  | _ => fail
where
  code (digits : List Char) : Reader Char :=
    match hexCharacter? digits with
    | some c => return c
    | none => fail

def quoted : Reader String := do
  char '"'
  let limit := (← get).length
  let characters ← Reader.many piece limit
  char '"'
  return String.ofList characters
where
  piece : Reader Char := do
    let c ← satisfy (· ≠ '"')
    if c = '\\' then escape else return c

def textTo (last : List Char) : Nat → Reader (List Char)
  | 0 => fail
  | limit + 1 => do
    if ← accepts (literal last) then return []
    else
      let c ← satisfy fun _ => true
      return c :: (← textTo last limit)

/-- A text without escapes. It ends at a quote with as many number signs behind it as stood in front. -/
def raw : Reader String := do
  char 'r'
  let marks ← takeWhile (· = '#')
  char '"'
  let limit := (← get).length + 1
  return String.ofList (← textTo ('"' :: marks) limit)

def character : Reader String := do
  char '\''
  let c ← satisfy (· ≠ '\'')
  let c ← if c = '\\' then escape else pure c
  char '\''
  return String.ofList [c]

def text : Reader String := quoted <|> raw <|> character

/-! ## Numbers -/

/-- A whole number: digits of a base that its first two characters name, with underscores among them. -/
def digits : Reader Nat := do
  let base ← (do literal ['0', 'x']; return 16) <|> (do literal ['0', 'b']; return 2)
    <|> (do literal ['0', 'o']; return 8) <|> pure 10
  let digits ← takeWhile1 fun c => (hexValue? c).isSome || c = '_'
  if digits.head? = some '_' then fail
  else match basedNumber? base (digits.filter (· ≠ '_')) with
    | some n => return n
    | none => fail

def integer (sign : Option Char) : Reader Setting := do
  let n ← digits
  match sign with
  | none =>
    if n ≤ Number.maxCount then return if Toml.isInteger n then .integer n else .real (.ofNat n) else fail
  | some sign =>
    let n := if sign = '-' then -(n : Int) else n
    if Toml.isInteger n then return .integer n else fail

def isRealCharacter (c : Char) : Bool := c.isDigit || ['+', '-', '.', 'e', 'E'].contains c

def real : Reader Setting := do
  let text ← takeWhile1 isRealCharacter
  if (← peek?) = some '_' then fail
  else match Setting.readReal? (String.ofList text) with
    | some x => return .real x
    | none => fail

/-- A number. It is a real number if characters of real numbers go on where the digits of whole numbers
    end, and also if it is too great for a whole number. -/
def number : Reader Setting := do
  let text ← get
  let sign := text.head?.filter fun c => c = '+' || c = '-'
  let unsigned := if sign.isSome then text.tail else text
  let reals := unsigned.takeWhile fun c => isRealCharacter c || c = '_'
  let wholes := unsigned.takeWhile fun c => (hexValue? c).isSome || c = '_'
  if wholes.length < reals.length then real
  else (do set unsigned; integer sign) <|> real

/-! ## Values -/

def scalar : Reader Setting :=
  (do word "true".toList; return .bool true) <|> (do word "false".toList; return .bool false)
    <|> (do word "None".toList; return .nothing) <|> (do literal ['(', ')']; return .nothing)
    <|> (do word "inf".toList; return .real (.ofMagnitude false Number.infinityMagnitude))
    <|> (do word "-inf".toList; return .real (.ofMagnitude true Number.infinityMagnitude))
    <|> (do word "NaN".toList; return .real .nan)
    <|> (Setting.text <$> text) <|> number

def itemsTo {α : Type} (item : Reader α) (close : Char) : Nat → Reader (List α)
  | 0 => fail
  | limit + 1 => do
    blanks
    if ← accepts (char close) then return []
    else
      let first ← item
      if ← comma then return first :: (← itemsTo item close limit)
      else
        char close
        return [first]

def pair (key : Reader String) (value : Reader Setting) : Reader (String × Setting) := do
  let key ← key
  blanks
  char ':'
  blanks
  return (key, ← value)

def hasNamedFields : Reader Bool := fun text =>
  let start : Reader Unit := do blanks; let _ ← name; blanks; char ':'
  some ((start text).isSome, text)

def fields (value : Reader Setting) : Reader Setting := do
  char '('
  let limit := (← get).length + 1
  if ← hasNamedFields then return .ofMembers (← itemsTo (pair name value) ')' limit)
  else return .list (← itemsTo value ')' limit)

/-- A value whose containers nest at most `depth` deep. A name in front of fields says nothing about them,
    and by itself it stands for nothing. The keys of a map have to be texts. -/
def valueWithin : Nat → Reader Setting
  | 0 => scalar <|> do let _ ← name; return .nothing
  | depth + 1 => scalar <|> do
    let limit := (← get).length + 1
    match ← peek? with
    | some '(' => fields (valueWithin depth)
    | some '[' => do
      char '['
      return .list (← itemsTo (valueWithin depth) ']' limit)
    | some '\x7b' => do
      char '\x7b'
      return .ofMembers (← itemsTo (pair text (valueWithin depth)) '\x7d' limit)
    | _ =>
      if ← accepts (word "Some".toList) then
        blanks
        char '('
        blanks
        let value ← valueWithin depth
        let _ ← comma
        char ')'
        return value
      else
        let _ ← name
        blanks
        if (← peek?) = some '(' then fields (valueWithin depth) else return .nothing

def nestingLimit : Nat := 128

/-! ## Documents -/

/-- Extensions that a document may switch on. They say nothing about settings. -/
def extensionNames : List String := ["unwrap_newtypes", "implicit_some", "unwrap_variant_newtypes"]

def extensions : Reader Unit := do
  char '#'
  blanks
  char '!'
  blanks
  char '['
  blanks
  literal "enable".toList
  blanks
  char '('
  let limit := (← get).length + 1
  let names ← itemsTo name ')' limit
  blanks
  char ']'
  blanks
  if names.isEmpty || !names.all extensionNames.contains then fail

def read? (text : String) : Option Setting :=
  let characters := text.toList
  let document : Reader Setting := do
    blanks
    let _ ← Reader.many extensions characters.length
    let value ← valueWithin nestingLimit
    blanks
    return value
  document.readAll? characters

end Skeletons.Ron
