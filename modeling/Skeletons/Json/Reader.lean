import Skeletons.Json.Form
import Skeletons.Text.Hexadecimal

namespace Skeletons

namespace Json

inductive Piece where
  | whole (character : Char)
  | half (unit : Nat)
deriving DecidableEq

def Piece.ofUnit (unit : Nat) : Piece :=
  if 0xd800 ≤ unit ∧ unit < 0xe000 then .half unit else .whole (Char.ofNat unit)

def Piece.join? : List Piece → Option (List Char)
  | [] => some []
  | .whole c :: rest => do return c :: (← join? rest)
  | .half high :: .half low :: rest =>
    if high < 0xdc00 ∧ 0xdc00 ≤ low then do
      return Char.ofNat (0x10000 + (high - 0xd800) * 0x400 + (low - 0xdc00)) :: (← join? rest)
    else none
  | .half _ :: _ => none

inductive Token where
  | openArray
  | closeArray
  | openObject
  | closeObject
  | comma
  | colon
  | text (pieces : List Piece)
  | word (characters : List Char)
deriving DecidableEq

/-! ## Scanning -/

/-- Where the scanner stands. What there is of an unfinished token is held latest first. -/
inductive Scanning where
  | between
  | word (held : List Char)
  | text (held : List Piece)
  | escape (held : List Piece)
  | code (held : List Piece) (count value : Nat)

structure Scanner where
  state : Scanning
  tokens : List Token

def structural? : Char → Option Token
  | '[' => some .openArray
  | ']' => some .closeArray
  | '\x7b' => some .openObject
  | '\x7d' => some .closeObject
  | ',' => some .comma
  | ':' => some .colon
  | _ => none

def isBlank (c : Char) : Bool := c = ' ' || c = '\t' || c = '\n' || c = '\r'

def scanBetween (c : Char) (tokens : List Token) : Scanner :=
  if isBlank c then ⟨.between, tokens⟩
  else if c = '"' then ⟨.text [], tokens⟩
  else match structural? c with
    | some token => ⟨.between, token :: tokens⟩
    | none => ⟨.word [c], tokens⟩

def unescaped? : Char → Option Char
  | '"' => some '"'
  | '\\' => some '\\'
  | '/' => some '/'
  | 'b' => some '\x08'
  | 'f' => some '\x0c'
  | 'n' => some '\n'
  | 'r' => some '\r'
  | 't' => some '\t'
  | _ => none

def Scanner.step (scanner : Scanner) (c : Char) : Option Scanner :=
  match scanner.state with
  | .between => some (scanBetween c scanner.tokens)
  | .word held =>
    if isBlank c || c = '"' || (structural? c).isSome then
      some (scanBetween c (.word held.reverse :: scanner.tokens))
    else some { scanner with state := .word (c :: held) }
  | .text held =>
    if c = '"' then some ⟨.between, .text held.reverse :: scanner.tokens⟩
    else if c = '\\' then some { scanner with state := .escape held }
    else if c.toNat < 32 then none
    else some { scanner with state := .text (.whole c :: held) }
  | .escape held =>
    if c = 'u' then some { scanner with state := .code held 4 0 }
    else (unescaped? c).map fun c => { scanner with state := .text (.whole c :: held) }
  | .code held count value => do
    let value := 16 * value + (← hexValue? c)
    let state : Scanning := if count ≤ 1 then .text (.ofUnit value :: held) else .code held (count - 1) value
    return { scanner with state }

def scan? (text : List Char) : Option (List Token) := do
  let scanner ← text.foldlM Scanner.step ⟨.between, []⟩
  match scanner.state with
  | .between => return scanner.tokens.reverse
  | .word held => return (.word held.reverse :: scanner.tokens).reverse
  | _ => none

/-! ## Assembling -/

/-- A container that is still open, with its finished parts latest first. -/
inductive Open where
  | array (items : List Form)
  | object (members : List (Option String × Form)) (name : Option String)

inductive Expected where
  | value
  | firstItem
  | firstName
  | name
  | colon
  | separator
  | nothing (form : Form)

structure Assembler where
  containers : List Open
  expected : Expected

def Assembler.accept (containers : List Open) (form : Form) : Assembler :=
  match containers with
  | [] => ⟨[], .nothing form⟩
  | .array items :: outer => ⟨.array (form :: items) :: outer, .separator⟩
  | .object members name :: outer => ⟨.object ((name, form) :: members) name :: outer, .separator⟩

def textOf (pieces : List Piece) : Option String := (Piece.join? pieces).map String.ofList

/-- A number as JSON spells it: no sign but a minus, no leading zeros, digits on both sides of a point. -/
def number? (characters : List Char) : Option Form :=
  let (negative, unsigned) := match characters with
    | '-' :: rest => (true, rest)
    | _ => (false, characters)
  let spelling := Decimal.Spelling.ofText unsigned
  let isZeroLed := spelling.whole.head? = some '0' ∧ 1 < spelling.whole.length
  if spelling.whole.isEmpty ∨ isZeroLed ∨ spelling.fraction = some [] then none
  else (spelling.value? negative).map fun _ => .number negative spelling

def scalar? : Token → Option Form
  | .text pieces => some (.text (textOf pieces))
  | .word ['n', 'u', 'l', 'l'] => some .null
  | .word ['t', 'r', 'u', 'e'] => some (.bool true)
  | .word ['f', 'a', 'l', 's', 'e'] => some (.bool false)
  | .word characters => number? characters
  | _ => none

def Assembler.start (containers : List Open) (token : Token) : Option Assembler :=
  match token with
  | .openArray => some ⟨.array [] :: containers, .firstItem⟩
  | .openObject => some ⟨.object [] none :: containers, .firstName⟩
  | token => (scalar? token).map (accept containers)

def Assembler.step (assembler : Assembler) (token : Token) : Option Assembler :=
  match assembler.expected, token, assembler.containers with
  | .firstItem, .closeArray, .array _ :: outer => some (accept outer (.array []))
  | .firstItem, token, containers => start containers token
  | .value, token, containers => start containers token
  | .firstName, .closeObject, .object .. :: outer => some (accept outer (.object []))
  | .firstName, .text pieces, .object members _ :: outer
  | .name, .text pieces, .object members _ :: outer =>
    some ⟨.object members (textOf pieces) :: outer, .colon⟩
  | .colon, .colon, containers => some ⟨containers, .value⟩
  | .separator, .comma, .array items :: outer => some ⟨.array items :: outer, .value⟩
  | .separator, .comma, .object members name :: outer => some ⟨.object members name :: outer, .name⟩
  | .separator, .closeArray, .array items :: outer => some (accept outer (.array items.reverse))
  | .separator, .closeObject, .object members _ :: outer => some (accept outer (.object members.reverse))
  | _, _, _ => none

def formOf? (tokens : List Token) : Option Form := do
  let assembler ← tokens.foldlM Assembler.step ⟨[], .value⟩
  match assembler.expected with
  | .nothing form => return form
  | _ => none

def Form.read? (text : String) : Option Form := scan? text.toList >>= formOf?

/-- The document that a text spells, with its numbers as a rule gives them and the members of objects as
    they were written. -/
def readBy? (rule : Numeral.Rule) (text : String) : Option Json :=
  Form.read? text >>= Form.toJson? rule depthLimit

def read? (text : String) : Option Json := readBy? Numeral.stepwise text

end Json

end Skeletons
