import Skeletons.Yaml.Token

namespace Skeletons.Yaml

/-! ## Characters -/

/-- The end of a text counts as this character, and so does the character itself. -/
def endMark : Char := '\x00'

def isSpace (c : Char) : Bool := c = ' ' || c = '\t'

def isBreak (c : Char) : Bool := c = '\n' || c = '\r'

def isBreakOrEnd (c : Char) : Bool := isBreak c || c = endMark

def isGap (c : Char) : Bool := isSpace c || isBreakOrEnd c

def isFlowMark (c : Char) : Bool := [',', '[', ']', '\x7b', '\x7d'].contains c

def isWordPart (c : Char) : Bool := c.isAlphanum || c = '_' || c = '-'

/-! ## State -/

/-- A token that may turn out to be a key. It is `required` to if nothing else may stand there. -/
structure KeyMark where
  possible : Bool := false
  required : Bool := false
  number : Nat := 0
  index : Nat := 0
  line : Nat := 0
  column : Nat := 0

def KeyMark.givenUp (key : KeyMark) : KeyMark := { key with possible := false }

/-- An indentation that another one has replaced. If that one belongs to a block, the block has to be
    closed when the indentation returns. -/
structure Indent where
  column : Int
  isBlock : Bool

structure Scanner where
  rest : List Char
  index : Nat := 0
  line : Nat := 0
  column : Nat := 0
  isLead : Bool := true
  tokens : List (Token × Nat) := []
  keyAllowed : Bool := true
  keys : List KeyMark := [{}]
  indent : Int := -1
  indents : List Indent := []
  flowLevel : Nat := 0
  /-- Where a colon needs no blank behind it. -/
  adjacentAt : Nat := 0
  isMarkedMapping : Bool := false
  /-- For each open flow sequence, innermost first, whether a mapping without braces is open in it. -/
  bareMappings : List Bool := []

abbrev Scan := StateT Scanner Option

namespace Scan

def fail {α : Type} : Scan α := fun _ => none

/-! ## Moves -/

def peek : Scan Char := return (← get).rest.headD endMark

def peekAt (place : Nat) : Scan Char := return ((← get).rest.drop place).headD endMark

def skipBlanks (count : Nat) : Scan Unit := modify fun s =>
  { s with rest := s.rest.drop count, index := s.index + count, column := s.column + count }

def skip (count : Nat) : Scan Unit := do
  skipBlanks count
  if count ≠ 0 then modify fun s => { s with isLead := false }

def skipBreak : Scan Unit := modify fun s =>
  let count := if s.rest.take 2 = ['\r', '\n'] then 2 else 1
  { s with
    rest := s.rest.drop count, index := s.index + count, line := s.line + 1, column := 0, isLead := true }

def rowOf (fits : Char → Char → Bool) : List Char → List Char
  | [] => []
  | c :: rest => if fits c (rest.headD endMark) then c :: rowOf fits rest else []

def takeRow (fits : Char → Char → Bool) : Scan (List Char) := do
  let row := rowOf fits (← get).rest
  skip row.length
  return row

def skipComment : Scan Unit := do let _ ← takeRow fun c _ => !isBreakOrEnd c

/-- Moves over blanks and a comment, which needs a blank in front of it. Tells whether there was a tab and
    whether there was a space. -/
def skipToLineEnd (tabs : Bool) : Scan (Bool × Bool) := do
  let blanks := (← get).rest.takeWhile fun c => c = ' ' || (tabs && c = '\t')
  skipBlanks blanks.length
  if (← peek) = '#' then
    if blanks.isEmpty then fail else skipComment
  return (blanks.contains '\t', blanks.contains ' ')

def finishLine : Scan Unit := do
  let _ ← skipToLineEnd true
  if !isBreakOrEnd (← peek) then fail

def isAtMark (mark : Char) : Scan Bool := do
  let s ← get
  return s.column = 0 && s.rest.take 3 = [mark, mark, mark] && isGap (← peekAt 3)

def isAtDocumentMark : Scan Bool := return (← isAtMark '-') || (← isAtMark '.')

/-! ## Tokens -/

def push (token : Token) (column : Nat) : Scan Unit := modify fun s =>
  { s with tokens := s.tokens ++ [(token, column)] }

def insert (number : Nat) (token : Token) (column : Nat) : Scan Unit := modify fun s =>
  { s with tokens := s.tokens.take number ++ (token, column) :: s.tokens.drop number }

/-! ## Keys -/

def allowKey (allowed : Bool) : Scan Unit := modify fun s => { s with keyAllowed := allowed }

def saveKey : Scan Unit := modify fun s =>
  if s.keyAllowed then
    let required := s.flowLevel = 0 && s.indent = s.column && s.indents.head?.any (·.isBlock)
    { s with keys := ⟨true, required, s.tokens.length, s.index, s.line, s.column⟩ :: s.keys.drop 1 }
  else s

def removeKey : Scan Unit := do
  let s ← get
  match s.keys with
  | key :: outer =>
    if key.possible && key.required then fail
    else set { s with keys := key.givenUp :: outer }
  | [] => return

/-- Gives up keys that are too long ago: outside of flow collections a key stands on one line with its
    colon, which follows within 1024 characters. -/
def dropStaleKeys : Scan Unit := do
  let s ← get
  let isStale := fun key : KeyMark =>
    key.possible && s.flowLevel = 0 && (key.line < s.line || key.index + 1024 < s.index)
  if s.keys.any fun key => isStale key && key.required then fail
  else
    set { s with keys := s.keys.map fun key => if isStale key then key.givenUp else key }

/-! ## Indentation -/

def rollIndent (column : Nat) (number : Option Nat) (token : Token) : Scan Unit := do
  if (← get).flowLevel = 0 then
    modify fun s =>
      match s.indents with
      | inner :: outer =>
        if s.indent ≤ column && !inner.isBlock then { s with indent := inner.column, indents := outer } else s
      | [] => s
    let s ← get
    if s.indent < column then
      set { s with indents := ⟨s.indent, true⟩ :: s.indents, indent := column }
      insert (number.getD s.tokens.length) token column

def unrollIndent (column : Int) : Scan Unit := do
  let s ← get
  if s.flowLevel = 0 then close s.indents.length
where
  close : Nat → Scan Unit
    | 0 => return
    | limit + 1 => do
      let s ← get
      match s.indents with
      | inner :: outer =>
        if column < s.indent then
          set { s with indent := inner.column, indents := outer }
          if inner.isBlock then push .blockEnd s.column
          close limit
      | [] => return

/-- Asks for one more column of indentation within a block, without opening one. -/
def rollOneColumn : Scan Unit := modify fun s =>
  if s.flowLevel = 0 && s.indents.head?.any (·.isBlock) then
    { s with indents := ⟨s.indent, false⟩ :: s.indents, indent := s.indent + 1 }
  else s

def unrollColumns : Scan Unit := modify fun s =>
  let (extra, kept) := (s.indents.takeWhile fun inner => !inner.isBlock,
    s.indents.dropWhile fun inner => !inner.isBlock)
  { s with indent := (extra.getLast?.map (·.column)).getD s.indent, indents := kept }

/-! ## Between tokens -/

def skipToToken : Nat → Scan Unit
  | 0 => return
  | limit + 1 => do
    let s ← get
    let c ← peek
    if c = '\t' && !s.indents.isEmpty && s.isLead && (s.column : Int) < s.indent then
      finishLine
      skipToToken limit
    else if isSpace c then
      skipBlanks 1
      skipToToken limit
    else if isBreak c then
      skipBreak
      if s.flowLevel = 0 then allowKey true
      skipToToken limit
    else if c = '#' then
      skipComment
      skipToToken limit

def toToken : Scan Unit := do skipToToken ((← get).rest.length + 1)

end Scan

end Skeletons.Yaml
