import Skeletons.Text.Hexadecimal
import Skeletons.Yaml.Scan

namespace Skeletons.Yaml.Scan

/-- What folded lines have between them: nothing if there was no first line break, else a space if no more
    of them followed, and else those. -/
def foldedGap (hasBreak : Bool) (more : Nat) : List Char :=
  if hasBreak && more = 0 then [' '] else List.replicate more '\n'

/-! ## Plain scalars -/

def isPlainPart (inFlow : Bool) (c next : Char) : Bool :=
  !isGap c && !(c = ':' && (isGap next || (inFlow && isFlowMark next))) && !(inFlow && isFlowMark c)

def plainGap (indent : Int) (hasBreak : Bool) (more : Nat) (blanks : List Char) :
    Nat → Scan (Bool × Nat × List Char)
  | 0 => return (hasBreak, more, blanks)
  | limit + 1 => do
    let s ← get
    let c ← peek
    if isSpace c then
      if !s.isLead then
        skipBlanks 1
        plainGap indent hasBreak more (blanks ++ [c]) limit
      else if (s.column : Int) < indent && c = '\t' then
        finishLine
        plainGap indent hasBreak more blanks limit
      else
        skipBlanks 1
        plainGap indent hasBreak more blanks limit
    else if isBreak c then
      skipBreak
      if s.isLead then plainGap indent hasBreak (more + 1) blanks limit
      else plainGap indent true more [] limit
    else return (hasBreak, more, blanks)

/-- The words of a plain scalar, of which `text` is read, with what stands in front of the next one. -/
def plainWords (indent : Int) (text : List Char) (hasBreak : Bool) (more : Nat) (blanks : List Char) :
    Nat → Scan (List Char)
  | 0 => return text
  | limit + 1 => do
    let s ← get
    let inFlow := s.flowLevel ≠ 0
    if (← isAtDocumentMark) || (← peek) = '#' then return text
    else if inFlow && (← peek) = '-' && isFlowMark (← peekAt 1) then fail
    else
      let word ← takeRow (isPlainPart inFlow)
      let (text, hasBreak, more, blanks) :=
        if word.isEmpty then (text, hasBreak, more, blanks)
        else if s.isLead then (text ++ foldedGap hasBreak more ++ word, false, 0, blanks)
        else (text ++ blanks ++ word, hasBreak, more, [])
      let c ← peek
      if !isSpace c && !isBreak c then return text
      else
        let (hasBreak, more, blanks) ← plainGap indent hasBreak more blanks ((← get).rest.length + 1)
        let s ← get
        if s.flowLevel = 0 && (s.column : Int) < indent then return text
        else plainWords indent text hasBreak more blanks limit

def plainScalar : Scan String := do
  unrollColumns
  let s ← get
  let indent := s.indent + 1
  if s.flowLevel ≠ 0 && (s.column : Int) < indent then fail
  else
    let text ← plainWords indent [] false 0 [] (s.rest.length + 1)
    if (← get).isLead then allowKey true
    return String.ofList text

/-! ## Scalars in quotes -/

def escaped? : Char → Option Char
  | '0' => some '\x00'
  | 'a' => some '\x07'
  | 'b' => some '\x08'
  | 't' | '\t' => some '\t'
  | 'n' => some '\n'
  | 'v' => some '\x0b'
  | 'f' => some '\x0c'
  | 'r' => some '\r'
  | 'e' => some '\x1b'
  | ' ' => some ' '
  | '"' => some '"'
  | '/' => some '/'
  | '\\' => some '\\'
  | 'N' => some '\u0085'
  | '_' => some '\u00a0'
  | 'L' => some '\u2028'
  | 'P' => some '\u2029'
  | _ => none

def codeLength? : Char → Option Nat
  | 'x' => some 2
  | 'u' => some 4
  | 'U' => some 8
  | _ => none

def quotedEscape : Scan Char := do
  let letter ← peekAt 1
  skip 2
  match escaped? letter, codeLength? letter with
  | some c, _ => return c
  | none, some length =>
    let digits := (← get).rest.take length
    if digits.length < length then fail
    else match hexCharacter? digits with
      | some c =>
        skip length
        return c
      | none => fail
  | none, none => fail

/-- Characters in quotes up to a blank or the second quote, and whether an escaped line break ended them. -/
def quotedWord (isSingle : Bool) : Nat → Scan (List Char × Bool)
  | 0 => return ([], false)
  | limit + 1 => do
    let c ← peek
    if isGap c then return ([], false)
    else if isSingle && c = '\'' then
      if (← peekAt 1) = '\'' then
        skip 2
        let (rest, broken) ← quotedWord isSingle limit
        return ('\'' :: rest, broken)
      else return ([], false)
    else if !isSingle && c = '"' then return ([], false)
    else if !isSingle && c = '\\' then
      if isBreak (← peekAt 1) then
        skip 1
        skipBreak
        return ([], true)
      else
        let c ← quotedEscape
        let (rest, broken) ← quotedWord isSingle limit
        return (c :: rest, broken)
    else
      skip 1
      let (rest, broken) ← quotedWord isSingle limit
      return (c :: rest, broken)

def quotedGap (broken hasBreak : Bool) (more : Nat) (blanks : List Char) : Nat → Scan (List Char)
  | 0 => return []
  | limit + 1 => do
    let s ← get
    let c ← peek
    if isSpace c then
      if !broken then
        skipBlanks 1
        quotedGap broken hasBreak more (blanks ++ [c]) limit
      else if c = '\t' && (s.column : Int) < s.indent then fail
      else
        skipBlanks 1
        quotedGap broken hasBreak more blanks limit
    else if isBreak c then
      skipBreak
      if broken then quotedGap true hasBreak (more + 1) blanks limit
      else quotedGap true true more [] limit
    else return if broken then foldedGap hasBreak more else blanks

def quotedText (isSingle : Bool) (text : List Char) : Nat → Scan (List Char)
  | 0 => fail
  | limit + 1 => do
    let s ← get
    if (← isAtDocumentMark) || (← peek) = endMark || (s.column : Int) < s.indent then fail
    else
      let (word, broken) ← quotedWord isSingle (s.rest.length + 1)
      let c ← peek
      if c = (if isSingle then '\'' else '"') then return text ++ word
      else
        let gap ← quotedGap broken false 0 [] ((← get).rest.length + 1)
        quotedText isSingle (text ++ word ++ gap) limit

/-- A scalar in quotes. On its last line only a comma, a closing mark or a colon may follow. -/
def quotedScalar (isSingle : Bool) : Scan String := do
  let start ← get
  skip 1
  let text ← quotedText isSingle [] (start.rest.length + 1)
  skip 1
  let _ ← skipToLineEnd true
  let s ← get
  let c ← peek
  let inFlow := s.flowLevel ≠ 0
  if isBreakOrEnd c || (inFlow && [',', '\x7d', ']', ':'].contains c) || (c = ':' && start.line = s.line) then
    return String.ofList text
  else fail

/-! ## Scalars in blocks -/

/-- What becomes of the line breaks at the end of a block: one is kept, none or all. -/
inductive Chomping where
  | clip
  | strip
  | keep
deriving DecidableEq

def chomping? : Char → Option Chomping
  | '+' => some .keep
  | '-' => some .strip
  | _ => none

def blockMarks : Scan (Chomping × Nat) := do
  match chomping? (← peek) with
  | some chomping =>
    skip 1
    return (chomping, ← blockIndent)
  | none =>
    let indent ← blockIndent
    match chomping? (← peek) with
    | some chomping =>
      skip 1
      return (chomping, indent)
    | none => return (.clip, indent)
where
  blockIndent : Scan Nat := do
    let c ← peek
    if c = '0' then fail
    else if c.isDigit then
      skip 1
      return c.toNat - '0'.toNat
    else return 0

/-- Empty lines, of which there are as many as are told, and the indentation of the line after them. -/
def blockIndentation (indent : Nat) (breaks : Nat) : Nat → Scan Nat
  | 0 => return breaks
  | limit + 1 => do
    let s ← get
    skipBlanks ((s.rest.take (indent - s.column)).takeWhile (· = ' ')).length
    if isBreak (← peek) then
      skipBreak
      blockIndentation indent (breaks + 1) limit
    else return breaks

def firstIndentation (furthest breaks : Nat) : Nat → Scan (Nat × Nat)
  | 0 => return (furthest, breaks)
  | limit + 1 => do
    skipBlanks ((← get).rest.takeWhile (· = ' ')).length
    let furthest := max furthest (← get).column
    if isBreak (← peek) then
      skipBreak
      firstIndentation furthest (breaks + 1) limit
    else return (furthest, breaks)

/-- Lines of a block. `text` is read; a line break and `more` empty lines stand between it and the next
    line, and `afterBlank` tells whether the last line started with a blank. -/
def blockLines (isLiteral : Bool) (indent : Nat) (text : List Char) (hasBreak : Bool) (more : Nat)
    (afterBlank : Bool) : Nat → Scan (List Char × Bool × Nat)
  | 0 => return (text, hasBreak, more)
  | limit + 1 => do
    let s ← get
    if s.column ≠ indent || (← peek) = endMark || (indent = 0 && (← isAtMark '.')) then
      return (text, hasBreak, more)
    else
      let startsBlank := isSpace (← peek)
      let gap :=
        if !isLiteral && hasBreak && !afterBlank && !startsBlank then foldedGap true more
        else (if hasBreak then ['\n'] else []) ++ List.replicate more '\n'
      let content := s.rest.takeWhile fun c => !isBreakOrEnd c
      skipBlanks content.length
      let text := text ++ gap ++ content
      if (← peek) = endMark then return (text, false, 0)
      else
        skipBreak
        let more ← blockIndentation indent 0 ((← get).rest.length + 1)
        blockLines isLiteral indent text true more startsBlank limit

def blockScalar (isLiteral : Bool) : Scan String := do
  let start ← get
  skip 1
  unrollColumns
  let (chomping, increment) ← blockMarks
  finishLine
  let hasLine := isBreak (← peek)
  if hasLine then skipBreak
  let s ← get
  if (← peek) = '\t' then fail
  else
    let limit := s.rest.length + 1
    let outer := s.indent.toNat
    let (indent, breaks) ←
      if increment = 0 then
        let (furthest, breaks) ← firstIndentation 0 0 limit
        let indent := max furthest (s.indent + 1).toNat
        pure (if 0 < s.indent then max indent 1 else indent, breaks)
      else
        let indent := outer + increment
        pure (indent, ← blockIndentation indent 0 limit)
    let s ← get
    if (← peek) = endMark then
      let kept :=
        if chomping = .strip || s.line = start.line then 0
        else if chomping = .clip || breaks = 0 then hasLine.toNat
        else breaks
      return String.ofList (List.replicate kept '\n')
    else if s.column < indent && s.indent < (s.column : Int) then fail
    else
      let (text, hasBreak, more) ← blockLines isLiteral indent [] false breaks false limit
      let isCutOff := (← peek) = endMark && max indent 1 ≤ (← get).column
      let last :=
        if chomping = .strip then []
        else List.replicate (hasBreak.toNat + isCutOff.toNat) '\n'
      let kept := if chomping = .keep then List.replicate more '\n' else []
      return String.ofList (text ++ last ++ kept)

end Skeletons.Yaml.Scan
