import Skeletons.Yaml.Scalar

namespace Skeletons.Yaml.Scan

/-! ## Directives -/

def word : Scan String := return String.ofList (← takeRow fun c _ => isWordPart c)

def spaces : Scan Unit := do skipBlanks ((← get).rest.takeWhile isSpace).length

def versionPart : Scan Unit := do
  let digits ← takeRow fun c _ => c.isDigit
  if digits.isEmpty || 9 < digits.length then fail

/-- A handle: an exclamation mark, and a word and a second one behind it. In a directive the word needs
    that second one. -/
def handle (isDirective : Bool) : Scan String := do
  if (← peek) ≠ '!' then fail
  else
    skip 1
    let name ← word
    if (← peek) = '!' then
      skip 1
      return "!" ++ name ++ "!"
    else if isDirective && name ≠ "" then fail
    else return "!" ++ name

def isUriPart (c : Char) : Bool :=
  (isWordPart c && c ≠ '_') || "#;/?:@&=+$,_.!~*'()[]%".toList.contains c

def uri (fits : Char → Bool) : Nat → Scan (List Char)
  | 0 => return []
  | limit + 1 => do
    let c ← peek
    if !fits c then return []
    else if c = '%' then
      let digits := ((← get).rest.drop 1).take 2
      match if digits.length = 2 then hexCharacter? digits else none with
      | some c =>
        if c.toNat < 128 then
          skip 3
          return c :: (← uri fits limit)
        else fail
      | none => fail
    else
      skip 1
      return c :: (← uri fits limit)

def uriText (fits : Char → Bool) : Scan String := do
  return String.ofList (← uri fits ((← get).rest.length + 1))

/-- A directive with the rest of its line. One of an unknown name is a directive without content. -/
def directive : Scan Token := do
  skip 1
  let name ← word
  if name = "" || !isGap (← peek) then fail
  else
    let token ←
      if name = "YAML" then do
        spaces
        versionPart
        if (← peek) ≠ '.' then fail
        skip 1
        versionPart
        pure Token.versionDirective
      else if name = "TAG" then do
        spaces
        let handle ← handle true
        spaces
        let lead ← uriText isUriPart
        if lead = "" || !isGap (← peek) then fail
        pure (Token.tagDirective handle lead)
      else do
        skipComment
        pure (Token.tagDirective "" "")
    finishLine
    if isBreak (← peek) then
      skipBreak
      return token
    else fail

/-! ## Properties of nodes -/

def isTagPart (c : Char) : Bool := isUriPart c && !isFlowMark c && c ≠ '!'

def tagToken : Scan Token := do
  let token ←
    if (← peekAt 1) = '<' then do
      skip 2
      let address ← uriText isUriPart
      if address = "" || (← peek) ≠ '>' then fail
      skip 1
      pure (Token.tag "" address)
    else do
      let handle ← handle false
      let suffix ← uriText isTagPart
      if 2 ≤ handle.length && handle.endsWith "!" then
        if suffix = "" then fail
        pure (Token.tag handle suffix)
      else
        let suffix := String.ofList (handle.toList.drop 1) ++ suffix
        pure (if suffix = "" then Token.tag "" "!" else Token.tag "!" suffix)
  let c ← peek
  if isGap c || ((← get).flowLevel ≠ 0 && isFlowMark c) then return token else fail

def isAnchorPart (c : Char) : Bool := !isGap c && !isFlowMark c && c ≠ '\ufeff'

def anchorName : Scan String := do
  skip 1
  let name ← takeRow fun c _ => isAnchorPart c
  if name.isEmpty then fail else return String.ofList name

/-! ## Flow collections -/

def closeBareMapping : Scan Unit := do
  let s ← get
  match s.bareMappings with
  | true :: outer =>
    set { s with bareMappings := false :: outer, isMarkedMapping := false }
    push .flowMappingEnd s.column
  | _ => return

def flowLimit : Nat := 255

def openFlow (token : Token) : Scan Unit := do
  saveKey
  rollOneColumn
  let s ← get
  if flowLimit ≤ s.flowLevel then fail
  else
    let isMapping := token = .flowMapping
    set { s with
      keys := {} :: s.keys, flowLevel := s.flowLevel + 1, keyAllowed := true, isMarkedMapping := isMapping,
      bareMappings := if isMapping then s.bareMappings else false :: s.bareMappings }
    skip 1
    let _ ← skipToLineEnd true
    push token s.column

def closeFlow (token : Token) : Scan Unit := do
  removeKey
  modify fun s =>
    if s.flowLevel = 0 then s else { s with flowLevel := s.flowLevel - 1, keys := s.keys.drop 1 }
  allowKey false
  if token = .flowSequenceEnd then
    closeBareMapping
    modify fun s => { s with bareMappings := s.bareMappings.drop 1 }
  let column := (← get).column
  skip 1
  let _ ← skipToLineEnd true
  modify fun s => if s.flowLevel = 0 then s else { s with adjacentAt := s.index }
  push token column

def comma : Scan Unit := do
  removeKey
  allowKey true
  closeBareMapping
  let column := (← get).column
  skip 1
  let _ ← skipToLineEnd true
  push .comma column

/-! ## Blocks -/

def item : Scan Unit := do
  let s ← get
  let afterProperty := s.tokens.getLast?.any fun (token, column) => token.isProperty && column = 0
  if s.flowLevel ≠ 0 || !s.keyAllowed || (afterProperty && s.column = 0 && -1 < s.indent) then fail
  else
    skip 1
    rollIndent s.column none .blockSequence
    let (tabs, _) ← skipToLineEnd true
    if tabs && (← peek) = '-' && isGap (← peekAt 1) then fail
    else
      let c ← peek
      if isBreak c || isFlowMark c then rollOneColumn
      removeKey
      allowKey true
      push .item (← get).column

def keyMark : Scan Unit := do
  let s ← get
  if s.flowLevel = 0 then
    if s.keyAllowed then rollIndent s.column none .blockMapping else fail
  else set { s with isMarkedMapping := true }
  removeKey
  allowKey (s.flowLevel = 0)
  skip 1
  let start := (← get).index
  blanks ((← get).rest.length + 1)
  if (← get).index = start || (← peek) = '\t' then fail
  push .key s.column
where
  blanks : Nat → Scan Unit
    | 0 => return
    | limit + 1 => do
      let c ← peek
      if c = ' ' then
        skipBlanks 1
        blanks limit
      else if isBreak c then
        skipBreak
        if (← get).flowLevel = 0 then allowKey true
        blanks limit
      else if c = '#' then
        skipComment
        blanks limit

/-- The colon in front of a value. If there is a possible key, its marks go in front of it. -/
def valueMark : Scan Unit := do
  let s ← get
  let isBare := !s.bareMappings.isEmpty && !s.isMarkedMapping
  if isBare then modify fun s => { s with bareMappings := true :: s.bareMappings.drop 1 }
  skip 1
  if (← peek) = '\t' then
    let (_, spaces) ← skipToLineEnd true
    let c ← peek
    if !spaces && (c = '-' || isWordPart c) then fail
  match s.keys.head?.filter (·.possible) with
  | some key => do
    insert key.number .key key.column
    if isBare then
      if key.line < s.line then fail
      insert key.number .flowMapping s.column
    rollIndent key.column (some key.number) .blockMapping
    rollOneColumn
    modify fun s => { s with keys := key.givenUp :: s.keys.drop 1, keyAllowed := false }
  | none => do
    if isBare then push .flowMapping s.column
    if s.flowLevel = 0 then
      if s.keyAllowed then rollIndent s.column none .blockMapping else fail
    rollOneColumn
    allowKey (s.flowLevel = 0)
  push .value s.column

/-! ## Tokens -/

def keyed (allowed : Bool) (read : Scan Token) : Scan Unit := do
  saveKey
  allowKey allowed
  let column := (← get).column
  let token ← read
  push token column

def closeBlocks : Scan Unit := do
  unrollIndent (-1)
  removeKey
  allowKey false

def documentMark (token : Token) : Scan Unit := do
  closeBlocks
  let column := (← get).column
  skip 3
  push token column

def token : Scan Bool := do
  toToken
  dropStaleKeys
  unrollIndent (← get).column
  let s ← get
  let c ← peek
  let next ← peekAt 1
  let inFlow := s.flowLevel ≠ 0
  if c = endMark then
    if s.keys.any fun key => key.required && key.possible then fail
    set { s with column := 0, keys := s.keys.map KeyMark.givenUp }
    closeBlocks
    push .streamEnd 0
    return false
  else
    if s.column = 0 && c = '%' then
      closeBlocks
      let token ← directive
      push token 0
    else if ← isAtMark '-' then documentMark .documentStart
    else if ← isAtMark '.' then
      documentMark .documentEnd
      finishLine
    else if (s.column : Int) < s.indent then fail
    else if c = '[' then openFlow .flowSequence
    else if c = '\x7b' then openFlow .flowMapping
    else if c = ']' then closeFlow .flowSequenceEnd
    else if c = '\x7d' then closeFlow .flowMappingEnd
    else if c = ',' then comma
    else if c = '-' && isGap next then item
    else if c = '?' && isGap next then keyMark
    else if c = ':' && (isGap next || (inFlow && (isFlowMark next || s.index = s.adjacentAt))) then valueMark
    else if c = '*' then keyed false (return .alias (← anchorName))
    else if c = '&' then keyed false (return .anchor (← anchorName))
    else if c = '!' then keyed false tagToken
    else if c = '|' && !inFlow then keyed true (return .scalar false (← blockScalar true))
    else if c = '>' && !inFlow then keyed true (return .scalar false (← blockScalar false))
    else if c = '\'' || c = '"' then keyed false do
      let text ← quotedScalar (c = '\'')
      toToken
      modify fun s => { s with adjacentAt := s.index }
      return .scalar false text
    else if c = '%' || c = '@' || c.toNat = 96 then fail
    else keyed false (return .scalar true (← plainScalar))
    return true

def tokens : Nat → Scan Unit
  | 0 => fail
  | limit + 1 => do if ← token then tokens limit

def tokens? (text : String) : Option (List Token) := do
  let scanner : Scanner := { rest := text.toList }
  let (_, scanner) ← tokens (scanner.rest.length + 2) scanner
  return scanner.tokens.map (·.1)

end Skeletons.Yaml.Scan
