import Skeletons.Setting
import Skeletons.Text.Hexadecimal
import Skeletons.Text.Letter
import Skeletons.Text.Reader

namespace Skeletons.Json5

open Reader (char literal satisfy takeWhile takeExactly accepts maybe peek? fail)

/-! ## Blanks -/

def isLineBreak (c : Char) : Bool := c = '\n' || c = '\r' || c = '\u2028' || c = '\u2029'

def isSpace (c : Char) : Bool := (isBlank c && c ≠ '\u0085') || c = '\ufeff'

def commentEnd : Nat → Reader Unit
  | 0 => fail
  | limit + 1 => do
    if ← accepts (literal ['*', '/']) then return
    else
      let _ ← satisfy fun _ => true
      commentEnd limit

def comment : Reader Unit := do
  char '/'
  if ← accepts (char '/') then
    let _ ← takeWhile fun c => !isLineBreak c
  else
    char '*'
    let limit := (← get).length + 1
    commentEnd limit

def blanks : Reader Unit := do
  let limit := (← get).length
  let _ ← Reader.many (comment <|> do let _ ← satisfy isSpace) limit

/-! ## Texts -/

def codeUnit : Reader Nat := do
  match basedNumber? 16 (← takeExactly 4 fun c => (hexValue? c).isSome) with
  | some n => return n
  | none => fail

def unitCharacter : Reader Char := do
  let unit ← codeUnit
  if 0xd800 ≤ unit ∧ unit < 0xdc00 then
    literal ['\\', 'u']
    let low ← codeUnit
    if 0xdc00 ≤ low ∧ low < 0xe000 then
      return Char.ofNat (0x10000 + (unit - 0xd800) * 0x400 + (low - 0xdc00))
    else fail
  else if 0xdc00 ≤ unit ∧ unit < 0xe000 then fail
  else return Char.ofNat unit

def escape : Reader (List Char) := do
  match ← satisfy fun _ => true with
  | 'b' => return ['\x08']
  | 'f' => return ['\x0c']
  | 'n' => return ['\n']
  | 'r' => return ['\r']
  | 't' => return ['\t']
  | 'v' => return ['\x0b']
  | '0' =>
    match ← peek? with
    | some c => if c.isDigit then fail else return ['\x00']
    | none => return ['\x00']
  | 'x' =>
    match hexCharacter? (← takeExactly 2 fun c => (hexValue? c).isSome) with
    | some c => return [c]
    | none => fail
  | 'u' => return [← unitCharacter]
  | '\r' =>
    let _ ← accepts (char '\n')
    return []
  | c => if isLineBreak c then return [] else if c.isDigit then fail else return [c]

def textBetween (quote : Char) : Reader String := do
  char quote
  let limit := (← get).length
  let pieces ← Reader.many piece limit
  char quote
  return String.ofList pieces.flatten
where
  piece : Reader (List Char) := do
    let c ← satisfy fun c => c ≠ quote && c ≠ '\n' && c ≠ '\r'
    if c = '\\' then escape else return [c]

def text : Reader String := textBetween '"' <|> textBetween '\''

def isNameStart (c : Char) : Bool := (isWordCharacter c && !c.isDigit) || c = '$' || c = '_'

def isNamePart (c : Char) : Bool := isNameStart c || c.isDigit || c = '\u200c' || c = '\u200d'

def name : Reader String := do
  let first ← nameCharacter isNameStart
  let limit := (← get).length
  let rest ← Reader.many (nameCharacter isNamePart) limit
  return String.ofList (first :: rest)
where
  nameCharacter (fits : Char → Bool) : Reader Char :=
    satisfy fits <|> do literal ['\\', 'u']; unitCharacter

/-! ## Numbers -/

def hexNumber : Reader Nat := do
  char '0'
  let _ ← satisfy fun c => c = 'x' || c = 'X'
  match basedNumber? 16 (← Reader.takeWhile1 fun c => (hexValue? c).isSome) with
  | some n => if n < 0x100000000 then return n else fail
  | none => fail

def decimal : Reader Decimal.Spelling := do
  let whole ← takeWhile Char.isDigit
  let zeroLed := whole.head? = some '0' ∧ 1 < whole.length
  let fraction ← maybe (do char '.'; takeWhile Char.isDigit)
  let power ← maybe do
    let _ ← satisfy fun c => c = 'e' || c = 'E'
    let sign ← maybe (satisfy fun c => c = '+' || c = '-')
    return sign.toList ++ (← Reader.takeWhile1 Char.isDigit)
  if zeroLed ∨ (whole.isEmpty ∧ (fraction.getD []).isEmpty) then fail else return ⟨whole, fraction, power⟩

def named (negative : Bool) : Reader Setting :=
  (do literal "Infinity".toList; return .real (.ofMagnitude negative Number.infinityMagnitude))
    <|> (do literal "NaN".toList; return .real .nan)

/-- A number without a point and a power of ten is a whole number of sixty-four bits; other numbers are
    doubles, but none beyond the greatest. A plus sign goes with decimals only, a minus sign not with base
    sixteen. -/
def number : Reader Setting := do
  let sign ← maybe (satisfy fun c => c = '+' || c = '-')
  let negative := sign = some '-'
  match ← if sign = some '+' then pure none else maybe (named negative) with
  | some setting => return setting
  | none =>
    match ← if sign.isNone then maybe hexNumber else pure none with
    | some n => return .integer n
    | none =>
      let spelling ← decimal
      match spelling.value? negative with
      | none => fail
      | some d =>
        if spelling.fraction.isNone ∧ spelling.power.isNone then
          let n := if negative then -(d.digits : Int) else d.digits
          if Toml.isInteger n then return .integer n else fail
        else if d.toNumber.isFinite then return .real d.toNumber
        else fail

/-! ## Values -/

def itemsTo {α : Type} (item : Reader α) (close : Char) : Nat → Reader (List α)
  | 0 => fail
  | limit + 1 => do
    blanks
    if ← accepts (char close) then return []
    else
      let first ← item
      blanks
      if ← accepts (char ',') then return first :: (← itemsTo item close limit)
      else
        char close
        return [first]

def word (word : List Char) (setting : Setting) : Reader Setting := do
  literal word
  return setting

def scalar : Reader Setting :=
  word "null".toList .nothing <|> word "true".toList (.bool true) <|> word "false".toList (.bool false)
    <|> (Setting.text <$> text) <|> number

def member (value : Reader Setting) : Reader (String × Setting) := do
  let name ← text <|> name
  blanks
  char ':'
  blanks
  return (name, ← value)

def valueWithin : Nat → Reader Setting
  | 0 => scalar
  | depth + 1 => do
    let limit := (← get).length
    match ← peek? with
    | some '[' => do
      char '['
      return .list (← itemsTo (valueWithin depth) ']' limit)
    | some '\x7b' => do
      char '\x7b'
      return .ofMembers (← itemsTo (member (valueWithin depth)) '\x7d' limit)
    | _ => scalar

def read? (text : String) : Option Setting :=
  let characters := text.toList
  let document : Reader Setting := do
    blanks
    let value ← valueWithin characters.length
    blanks
    return value
  document.readAll? characters

end Skeletons.Json5
