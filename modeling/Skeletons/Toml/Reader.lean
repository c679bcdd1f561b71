import Skeletons.Decimal
import Skeletons.Text.Hexadecimal
import Skeletons.Text.Reader
import Skeletons.Toml.Table

namespace Skeletons.Toml

open Reader (char satisfy takeWhile takeWhile1 takeExactly accepts maybe peek? fail)

/-! ## Blanks and comments -/

def isSpace (c : Char) : Bool := c = ' ' || c = '\t'

def isPlain (c : Char) : Bool := c = '\t' || (32 ≤ c.toNat && c ≠ '\x7f')

def spaces : Reader Unit := do let _ ← takeWhile isSpace

def lineBreak : Reader Unit := do
  let _ ← accepts (char '\r')
  char '\n'

def comment : Reader Unit := do
  char '#'
  let _ ← takeWhile isPlain

def restOfLine : Reader Unit := do
  spaces
  let _ ← accepts comment
  if ← Reader.atEnd then return else lineBreak

def filler : Reader Unit := do
  match ← peek? with
  | some ' ' | some '\t' => spaces
  | some '#' => comment
  | _ => lineBreak

def fillers : Reader Unit := do
  let limit := (← get).length
  let _ ← Reader.many filler limit

/-! ## Strings -/

def codePoint (count : Nat) : Reader Char := do
  let digits ← takeExactly count fun c => (hexValue? c).isSome
  match hexCharacter? digits with
  | some c => return c
  | none => fail

def escape : Reader Char := do
  match ← satisfy fun _ => true with
  | 'b' => return '\x08'
  | 't' => return '\t'
  | 'n' => return '\n'
  | 'f' => return '\x0c'
  | 'r' => return '\r'
  | '"' => return '"'
  | '\\' => return '\\'
  | 'u' => codePoint 4
  | 'U' => codePoint 8
  | _ => fail

def basicPiece : Reader (List Char) := do
  let c ← satisfy fun c => isPlain c && c ≠ '"'
  if c = '\\' then return [← escape] else return [c]

def contentTo (piece : Reader (List Char)) (delimiter : Char) : Reader String := do
  char delimiter
  let limit := (← get).length
  let pieces ← Reader.many piece limit
  char delimiter
  return String.ofList pieces.flatten

def literalPiece : Reader (List Char) := return [← satisfy fun c => isPlain c && c ≠ '\'']

def continuation : Reader (List Char) := do
  char '\\'
  spaces
  lineBreak
  let limit := (← get).length
  let _ ← Reader.many (lineBreak <|> do let _ ← satisfy isSpace) limit
  return []

def brokenLine : Reader (List Char) := do lineBreak; return ['\n']

def quotesWithin (mark : Char) : Reader (List Char) := fun text =>
  let run := text.takeWhile (· = mark)
  if run.length = 1 ∨ run.length = 2 then some (run, text.drop run.length) else none

/-- The end of a string on several lines: three delimiters, before which up to two are content. -/
def lastQuotes (mark : Char) : Reader (List Char) := fun text =>
  let run := (text.takeWhile (· = mark)).take 5
  if 3 ≤ run.length then some (run.drop 3, text.drop run.length) else none

def linesTo (piece : Reader (List Char)) (mark : Char) : Reader String := do
  Reader.literal [mark, mark, mark]
  let _ ← accepts lineBreak
  let limit := (← get).length
  let pieces ← Reader.many (brokenLine <|> piece <|> quotesWithin mark) limit
  let last ← lastQuotes mark
  return String.ofList (pieces.flatten ++ last)

def string : Reader String :=
  linesTo (continuation <|> basicPiece) '"' <|> linesTo literalPiece '\''
    <|> contentTo basicPiece '"' <|> contentTo literalPiece '\''

/-! ## Keys -/

def isBareKey (c : Char) : Bool :=
  ('a' ≤ c && c ≤ 'z') || ('A' ≤ c && c ≤ 'Z') || c.isDigit || c = '_' || c = '-'

def simpleKey : Reader String := do
  match ← peek? with
  | some '"' => contentTo basicPiece '"'
  | some '\'' => contentTo literalPiece '\''
  | _ => return String.ofList (← takeWhile1 isBareKey)

def dottedPart : Reader String := do
  spaces
  char '.'
  spaces
  simpleKey

/-- How deep arrays and inline tables may nest, and how many parts a key may have. -/
def nestingLimit : Nat := 79

def key : Reader (List String × String) := do
  spaces
  let first ← simpleKey
  let limit := (← get).length
  let rest ← Reader.many dottedPart limit
  spaces
  let path := first :: rest
  if nestingLimit < path.length then fail else return (path.dropLast, path.getLast?.getD first)

/-! ## Numbers -/

def spacedDigits (isDigit : Char → Bool) : Reader (List Char) := do
  let first ← takeWhile1 isDigit
  let limit := (← get).length
  let rest ← Reader.many (do char '_'; takeWhile1 isDigit) limit
  return first ++ rest.flatten

def basedInteger (mark : Char) (base : Nat) : Reader Toml := do
  Reader.literal ['0', mark]
  let digits ← spacedDigits fun c => (hexValue? c).any (· < base)
  match basedNumber? base digits with
  | some n => if isInteger n then return .integer n else fail
  | none => fail

def wholeDigits : Reader (List Char) := do
  let digits ← spacedDigits Char.isDigit
  if digits.head? = some '0' ∧ 1 < digits.length then fail else return digits

/-- A whole number in base ten or a real number. A real number above the greatest is refused, other than
    one below the least, which is read as minus infinity. -/
def decimal : Reader Toml := do
  let sign ← maybe (satisfy fun c => c = '+' || c = '-')
  let negative := sign = some '-'
  if ← accepts (Reader.literal ['i', 'n', 'f']) then
    return .real (.ofMagnitude negative Number.infinityMagnitude)
  else if ← accepts (Reader.literal ['n', 'a', 'n']) then
    return .real (.ofMagnitude negative Number.nan.magnitude)
  else
    let whole ← wholeDigits
    let fraction ← maybe (do char '.'; spacedDigits Char.isDigit)
    let power ← maybe do
      let _ ← satisfy fun c => c = 'e' || c = 'E'
      let sign ← maybe (satisfy fun c => c = '+' || c = '-')
      return sign.toList ++ (← spacedDigits Char.isDigit)
    let value : Decimal.Spelling := ⟨whole, fraction, power⟩
    match value.value? negative with
    | none => fail
    | some d =>
      if fraction.isNone ∧ power.isNone then
        let n := if negative then -(d.digits : Int) else d.digits
        if isInteger n then return .integer n else fail
      else if d.toNumber = .ofMagnitude false Number.infinityMagnitude then fail
      else return .real d.toNumber

/-! ## Values -/

def word (word : List Char) (value : Toml) : Reader Toml := do
  Reader.literal word
  return value

def scalar : Reader Toml :=
  (Toml.text <$> string) <|> word "true".toList (.bool true) <|> word "false".toList (.bool false)
    <|> (Toml.moment <$> Moment.reader .document) <|> basedInteger 'x' 16 <|> basedInteger 'o' 8
    <|> basedInteger 'b' 2 <|> decimal

def itemsBy (item : Reader Toml) : Nat → Reader (List Toml)
  | 0 => fail
  | limit + 1 => do
    fillers
    if ← accepts (char ']') then return []
    else
      let value ← item
      fillers
      if ← accepts (char ',') then return value :: (← itemsBy item limit)
      else
        char ']'
        return [value]

def pairBy (item : Reader Toml) : Reader (List String × String × Toml) := do
  let (path, last) ← key
  char '='
  spaces
  let value ← item
  return (path, last, value)

/-- The pairs of an inline table after the brace. No comma follows the last one. -/
def pairsBy (item : Reader Toml) : Reader (List (List String × String × Toml)) := do
  spaces
  if ← accepts (char '\x7d') then return []
  else
    let pair : Reader (List String × String × Toml) := do
      let pair ← pairBy item
      spaces
      return pair
    let first ← pair
    let limit := (← get).length
    let rest ← Reader.many (do char ','; pair) limit
    char '\x7d'
    return first :: rest

def valueWithin : Nat → Reader Toml
  | 0 => scalar
  | depth + 1 => do
    match ← peek? with
    | some '[' => do
      char '['
      let limit := (← get).length
      return .array (← itemsBy (valueWithin depth) limit)
    | some '\x7b' => do
      char '\x7b'
      let pairs ← pairsBy (valueWithin depth)
      match inlineTable? pairs with
      | some value => return value
      | none => fail
    | _ => scalar

def value : Reader Toml := valueWithin nestingLimit

/-! ## Documents -/

def line : Reader (Option Statement) := do
  spaces
  match ← peek? with
  | some '[' => do
    char '['
    let several ← accepts (char '[')
    let (path, last) ← key
    char ']'
    if several then char ']'
    restOfLine
    return some (.header several path last)
  | some '#' | some '\n' | some '\r' => do
    restOfLine
    return none
  | _ => do
    let (path, last, value) ← pairBy value
    restOfLine
    return some (.pair path last value)

def linesWithin : Nat → Reader (List Statement)
  | 0 => return []
  | limit + 1 => do
    let _ ← accepts spacesToEnd
    if ← Reader.atEnd then return []
    else
      let statement ← line
      return statement.toList ++ (← linesWithin limit)
where
  spacesToEnd : Reader Unit := do
    spaces
    if ← Reader.atEnd then return else fail

/-- The members of the table that a text describes. A byte order mark in front is left out. -/
def read? (text : String) : Option (List (String × Toml)) := do
  let characters := match text.toList with
    | '\ufeff' :: rest => rest
    | characters => characters
  let statements ← (linesWithin (characters.length + 1)).readAll? characters
  document? statements

end Skeletons.Toml
