import Skeletons.Text.Blank
import Skeletons.Text.Hexadecimal
import Skeletons.Text.Letter

namespace Skeletons.LogFilter.Pattern

/-! ## Faults -/

/-- A stretch of a pattern. Places count characters. -/
structure Span where
  start : Nat
  stop : Nat
deriving DecidableEq, Inhabited

inductive Flaw where
  | classEscape
  | classRange
  | classBoundary
  | classUnclosed
  | decimalInvalid
  | hexNoCharacter
  | hexDigit
  | escapeUnfinished
  | escapeUnknown
  | flagDangling
  | flagTwice
  | negationTwice
  | flagUnfinished
  | flagUnknown
  | nameTwice
  | nameEmpty
  | nameCharacter
  | nameUnclosed
  | groupUnclosed
  | groupUnopened
  | countEmpty
  | countUnclosed
  | repetitionMissing
  | boundaryUnclosed
  | boundaryUnfinished
  | propertyInvalid
  | backreference
  | lookAround
  | noUnicode
  | noProperty
  | noClass
  | noCase
  | noText
deriving DecidableEq

def Flaw.message : Flaw → String
  | .classEscape => "invalid escape sequence found in character class"
  | .classRange => "invalid character class range, the start must be <= the end"
  | .classBoundary => "invalid range boundary, must be a literal"
  | .classUnclosed => "unclosed character class"
  | .decimalInvalid => "decimal literal invalid"
  | .hexNoCharacter => "hexadecimal literal is not a Unicode scalar value"
  | .hexDigit => "invalid hexadecimal digit"
  | .escapeUnfinished => "incomplete escape sequence, reached end of pattern prematurely"
  | .escapeUnknown => "unrecognized escape sequence"
  | .flagDangling => "dangling flag negation operator"
  | .flagTwice => "duplicate flag"
  | .negationTwice => "flag negation operator repeated"
  | .flagUnfinished => "expected flag but got end of regex"
  | .flagUnknown => "unrecognized flag"
  | .nameTwice => "duplicate capture group name"
  | .nameEmpty => "empty capture group name"
  | .nameCharacter => "invalid capture group character"
  | .nameUnclosed => "unclosed capture group name"
  | .groupUnclosed => "unclosed group"
  | .groupUnopened => "unopened group"
  | .countEmpty => "repetition quantifier expects a valid decimal"
  | .countUnclosed => "unclosed counted repetition"
  | .repetitionMissing => "repetition operator missing expression"
  | .boundaryUnclosed =>
    "special word boundary assertion is either unclosed or contains an invalid character"
  | .boundaryUnfinished =>
    "found either the beginning of a special word boundary or a bounded repetition on a \\b with an opening "
      ++ "brace, but no closing brace"
  | .propertyInvalid => "invalid Unicode character class"
  | .backreference => "backreferences are not supported"
  | .lookAround => "look-around, including look-ahead and look-behind, is not supported"
  | .noUnicode => "Unicode not allowed here"
  | .noProperty => "Unicode property not found"
  | .noClass => "Unicode-aware Perl class not found (make sure the unicode-perl feature is enabled)"
  | .noCase =>
    "Unicode-aware case insensitivity matching is not available (make sure the unicode-case feature is enabled)"
  | .noText => "pattern can match invalid UTF-8"

structure Fault where
  flaw : Flaw
  span : Span
  original : Option Span := none
deriving DecidableEq

inductive Problem where
  | unsound (pattern : List Char) (fault : Fault)
  | wordBoundary
deriving DecidableEq

/-! ## State -/

structure Switches where
  foldsCase : Bool := false
  isUnicode : Bool := true
  isSpaced : Bool := false

structure Group where
  place : Nat
  switches : Switches

structure Checker where
  rest : List Char
  place : Nat := 0
  switches : Switches := {}
  groups : List Group := []
  isRepeatable : Bool := false
  names : List (List Char × Span) := []
  /-- The first fault that counts only if the form of the pattern is sound. -/
  doubt : Option Fault := none
  hasWordBoundary : Bool := false

abbrev Check := StateT Checker (Except Fault)

def flawed {α : Type} (flaw : Flaw) (start stop : Nat) : Check α := throw ⟨flaw, ⟨start, stop⟩, none⟩

def here : Check Nat := return (← get).place

def next? : Check (Option Char) := return (← get).rest.head?

def bump (count : Nat) : Check Unit := modify fun s =>
  { s with rest := s.rest.drop count, place := s.place + (s.rest.take count).length }

def spaceLength : Bool → List Char → Nat
  | _, [] => 0
  | inComment, c :: rest =>
    if inComment then spaceLength (c ≠ '\n') rest + 1
    else if isBlank c then spaceLength false rest + 1
    else if c = '#' then spaceLength true rest + 1
    else 0

def bumpSpace : Check Unit := do
  let s ← get
  if s.switches.isSpaced then bump (spaceLength false s.rest)

def advance : Check Unit := do
  bump 1
  bumpSpace

def accepts (text : List Char) : Check Bool := do
  if text.isPrefixOf (← get).rest then
    bump text.length
    return true
  else return false

def acceptsAny : List String → Check Bool
  | [] => return false
  | text :: others => do if ← accepts text.toList then return true else acceptsAny others

def doubtful (flaw : Flaw) (start stop : Nat) : Check Unit := modify fun s =>
  { s with doubt := s.doubt <|> some ⟨flaw, ⟨start, stop⟩, none⟩ }

/-! ## Characters -/

inductive Part where
  | literal (character : Char)
  | letterClass (isOthers : Bool)
  | property
  | wordBoundary
  | assertion
deriving DecidableEq

def hexDigits (start : Nat) (digits : List Char) : Nat → Check Part
  | 0 => do
    match hexCharacter? digits with
    | some c => return .literal c
    | none => flawed .hexNoCharacter start (← here)
  | left + 1 => do
    match ← next? with
    | none => flawed .escapeUnfinished (← here) (← here)
    | some c =>
      if (hexValue? c).isSome then
        advance
        hexDigits start (digits ++ [c]) left
      else flawed .hexDigit (← here) ((← here) + 1)

/-- Digits of a character's number behind a brace, which is never closed. -/
def bracedDigits (brace : Nat) : Nat → Check Part
  | 0 => do flawed .escapeUnfinished brace (← here)
  | limit + 1 => do
    match ← next? with
    | none => flawed .escapeUnfinished brace (← here)
    | some c =>
      if (hexValue? c).isSome then
        advance
        bracedDigits brace limit
      else flawed .hexDigit (← here) ((← here) + 1)

def hexEscape (count : Nat) : Check Part := do
  advance
  let place ← here
  match ← next? with
  | none => flawed .escapeUnfinished place place
  | some '\x7b' =>
    advance
    bracedDigits place ((← get).rest.length + 1)
  | some _ => hexDigits place [] count

def propertyEscape : Check Part := do
  advance
  let place ← here
  match ← next? with
  | none => flawed .escapeUnfinished place place
  | some '\x7b' =>
    bump (← get).rest.length
    flawed .escapeUnfinished (← here) (← here)
  | some '\\' => flawed .propertyInvalid place (place + 1)
  | some _ =>
    advance
    return .property

/-- The name of a boundary of words, which is never closed. A brace that no name follows is left. -/
def boundaryName (start : Nat) : Check Unit := do
  let brace ← get
  let isPart := fun c : Char => c.isAlpha || c = '-'
  if brace.rest.head? = some '\x7b' then
    advance
    match ← next? with
    | none => flawed .boundaryUnfinished start (← here)
    | some c =>
      if isPart c then
        boundaryParts isPart ((← get).rest.length + 1)
        flawed .boundaryUnclosed brace.place (← here)
      else set brace
where
  boundaryParts (isPart : Char → Bool) : Nat → Check Unit
    | 0 => return
    | limit + 1 => do
      if (← next?).any isPart then
        advance
        boundaryParts isPart limit

def escape : Check Part := do
  let start ← here
  bump 1
  match ← next? with
  | none => flawed .escapeUnfinished start (← here)
  | some c =>
    if c.isDigit then flawed .backreference start (start + 2)
    else if c = 'x' then hexEscape 2
    else if c = 'u' then hexEscape 4
    else if c = 'U' then hexEscape 8
    else if c = 'p' || c = 'P' then propertyEscape
    else
      bump 1
      if ['d', 's', 'w', 'D', 'S', 'W'].contains c then return .letterClass c.isUpper
      else if ['a', 'f', 't', 'n', 'r', 'v'].contains c then return .literal c
      else if c = 'A' || c = 'z' then return .assertion
      else if c = 'b' then
        boundaryName start
        return .wordBoundary
      else if ['B', '<', '>'].contains c then return .wordBoundary
      else if c.isAlpha || 128 ≤ c.toNat then flawed .escapeUnknown start (start + 2)
      else return .literal c

def part : Check Part := do
  match ← next? with
  | some '\\' => escape
  | some c =>
    bump 1
    return .literal c
  | none => return .assertion

def examine (part : Part) (start stop : Nat) (inClass : Bool) : Check Unit := do
  let switches := (← get).switches
  match part with
  | .literal _ => if switches.foldsCase && switches.isUnicode && !inClass then doubtful .noCase start stop
  | .letterClass isOthers =>
    if switches.isUnicode then doubtful .noClass start stop
    else if isOthers then doubtful .noText start stop
  | .property => doubtful (if switches.isUnicode then .noProperty else .noUnicode) start stop
  | .wordBoundary => if switches.isUnicode then modify fun s => { s with hasWordBoundary := true }
  | .assertion => return

/-! ## Classes -/

def leadingHyphens (start : Nat) : Nat → Check Bool
  | 0 => return false
  | limit + 1 => do
    if (← next?) = some '-' then
      advance
      if (← next?).isNone then flawed .classUnclosed start start
      let _ ← leadingHyphens start limit
      return true
    else return false

structure ClassFront where
  span : Span
  isOthers : Bool
deriving Inhabited

def openClass : Check ClassFront := do
  let start ← here
  advance
  let needMore : Check Unit := do
    if (← next?).isNone then flawed .classUnclosed start (← here)
  needMore
  let isOthers := (← next?) = some '^'
  if isOthers then
    advance
    needMore
  let hasHyphen ← leadingHyphens start ((← get).rest.length + 1)
  if !hasHyphen && (← next?) = some ']' then
    advance
    needMore
  return ⟨⟨start, ← here⟩, isOthers⟩

def classNames : List String :=
  ["alnum", "alpha", "ascii", "blank", "cntrl", "digit", "graph", "lower", "print", "punct", "space", "upper",
    "word", "xdigit"]

def namedClassLength? (text : List Char) : Option Nat :=
  match text with
  | '[' :: ':' :: rest =>
    let named := match rest with
      | '^' :: named => named
      | named => named
    let name := named.takeWhile (· ≠ ':')
    if classNames.contains (String.ofList name) && (named.drop name.length).take 2 = [':', ']'] then
      some (text.length - named.length + name.length + 2)
    else none
  | _ => none

def peekSpace : Check (Option Char) := do
  let s ← get
  let rest := s.rest.drop 1
  return (rest.drop (if s.switches.isSpaced then spaceLength false rest else 0)).head?

def range (opened : Span) : Check Unit := do
  let unclosed : Check Unit := flawed .classUnclosed opened.start opened.stop
  let start ← here
  let first ← part
  let firstStop ← here
  bumpSpace
  if (← next?).isNone then unclosed
  let behind ← peekSpace
  if (← next?) ≠ some '-' || behind = some ']' || behind = some '-' then
    match first with
    | .wordBoundary | .assertion => flawed .classEscape start firstStop
    | first => examine first start firstStop true
  else
    advance
    if (← next?).isNone then unclosed
    let secondStart ← here
    let second ← part
    let stop ← here
    match first, second with
    | .literal low, .literal high => if high < low then flawed .classRange start stop
    | .literal _, _ => flawed .classBoundary secondStart stop
    | _, _ => flawed .classBoundary start firstStop

def examineClass (isOthers : Bool) (start : Nat) : Check Unit := do
  let switches := (← get).switches
  if switches.isUnicode then
    if switches.foldsCase then doubtful .noCase start (← here)
  else if isOthers then doubtful .noText start (← here)

def classParts (opened : List ClassFront) : Nat → Check Unit
  | 0 => return
  | limit + 1 => do
    bumpSpace
    let s ← get
    let inner := opened.headD default
    let isPair := s.rest.take 2 = ['&', '&'] || s.rest.take 2 = ['-', '-'] || s.rest.take 2 = ['~', '~']
    match s.rest.head? with
    | none => flawed .classUnclosed inner.span.start inner.span.stop
    | some c =>
      if c = '[' then
        match namedClassLength? s.rest with
        | some length =>
          bump length
          examineClass (s.rest[2]? = some '^') s.place
          classParts opened limit
        | none => classParts ((← openClass) :: opened) limit
      else if c = ']' then
        bump 1
        examineClass inner.isOthers inner.span.start
        match opened with
        | _ :: outer :: outers => classParts (outer :: outers) limit
        | _ => return
      else if isPair then
        bump 2
        classParts opened limit
      else
        range inner.span
        classParts opened limit

def bracketed : Check Unit := do
  let opened ← openClass
  classParts [opened] ((← get).rest.length + 1)

/-! ## Groups -/

def switchLetters : List Char := ['i', 'm', 's', 'U', 'u', 'R', 'x']

/-- Switches between a question mark and a colon or parenthesis. `seen` are those so far with their
    places, a hyphen among them. -/
def switchList (seen : List (Char × Nat)) : Nat → Check (List (Char × Nat))
  | 0 => return seen
  | limit + 1 => do
    let place ← here
    match ← next? with
    | none => flawed .flagUnfinished place place
    | some c =>
      if c = ':' || c = ')' then
        match seen with
        | ('-', negation) :: _ => flawed .flagDangling negation (negation + 1)
        | seen => return seen.reverse
      else if c ≠ '-' && !switchLetters.contains c then
        flawed .flagUnknown place (place + 1)
      else match seen.lookup c with
        | some original =>
          throw ⟨if c = '-' then .negationTwice else .flagTwice, ⟨place, place + 1⟩,
            some ⟨original, original + 1⟩⟩
        | none =>
          bump 1
          switchList ((c, place) :: seen) limit

def Switches.apply (switches : Switches) (value : Bool) : List Char → Switches
  | [] => switches
  | c :: rest =>
    if c = '-' then apply switches false rest
    else if c = 'i' then apply { switches with foldsCase := value } value rest
    else if c = 'u' then apply { switches with isUnicode := value } value rest
    else if c = 'x' then apply { switches with isSpaced := value } value rest
    else apply switches value rest

def isNamePart (isFirst : Bool) (c : Char) : Bool :=
  c = '_' || (if isFirst then isWordCharacter c && !c.isDigit else isWordCharacter c || ['.', '[', ']'].contains c)

def groupName : Check Unit := do
  let s ← get
  let start := s.place
  let name := s.rest.takeWhile (· ≠ '>')
  match firstBad true name with
  | some bad => flawed .nameCharacter (start + bad) (start + bad + 1)
  | none =>
    let stop := start + name.length
    bump name.length
    if (← next?).isNone then flawed .nameUnclosed stop stop
    else if name.isEmpty then flawed .nameEmpty start start
    else
      bump 1
      match s.names.lookup name with
      | some original => throw ⟨.nameTwice, ⟨start, stop⟩, some original⟩
      | none => modify fun s => { s with names := (name, ⟨start, stop⟩) :: s.names }
where
  firstBad (isFirst : Bool) : List Char → Option Nat
    | [] => none
    | c :: rest => if isNamePart isFirst c then (firstBad false rest).map (· + 1) else some 0

def openGroup : Check Unit := do
  let place ← here
  let outer := (← get).switches
  bump 1
  bumpSpace
  let inner ← here
  let enter (switches : Switches) : Check Unit := modify fun s =>
    { s with groups := ⟨place, outer⟩ :: s.groups, switches := switches, isRepeatable := false }
  if ← acceptsAny ["?=", "?!", "?<=", "?<!"] then flawed .lookAround place (← here)
  else if ← acceptsAny ["?P<", "?<"] then
    groupName
    enter outer
  else if ← accepts ['?'] then
    if (← next?).isNone then flawed .groupUnclosed place (place + 1)
    let list ← switchList [] ((← get).rest.length + 1)
    let isGroup := (← next?) = some ':'
    bump 1
    let switches := outer.apply true (list.map Prod.fst)
    if isGroup then enter switches
    else if list.isEmpty then flawed .repetitionMissing inner inner
    else modify fun s => { s with switches := switches, isRepeatable := false }
  else enter outer

def closeGroup : Check Unit := do
  let s ← get
  match s.groups with
  | group :: groups =>
    set { s with groups, switches := group.switches, isRepeatable := true }
    bump 1
  | [] => flawed .groupUnopened s.place (s.place + 1)

/-! ## Repetitions -/

def needPart : Check Unit := do
  let s ← get
  if !s.isRepeatable then flawed .repetitionMissing s.place s.place

def repetition : Check Unit := do
  needPart
  bump 1
  let _ ← accepts ['?']

def countDigits : Nat → Check (List Char)
  | 0 => return []
  | limit + 1 => do
    match ← next? with
    | some c =>
      if c.isDigit then
        advance
        return c :: (← countDigits limit)
      else return []
    | none => return []

def countedRepetition : Check Unit := do
  needPart
  let start ← here
  advance
  let blanks : Check Unit := do bump ((← get).rest.takeWhile isBlank).length
  blanks
  let first ← here
  let digits ← countDigits ((← get).rest.length + 1)
  let stop ← here
  blanks
  if (← next?).isNone then flawed .countUnclosed start (← here)
  else if digits.isEmpty then flawed .countEmpty first stop
  else if (basedNumber? 10 digits).any fun n => 0xffffffff < n then flawed .decimalInvalid first stop
  else flawed .countUnclosed start (← here)

/-! ## Patterns -/

def parts : Nat → Check Unit
  | 0 => return
  | limit + 1 => do
    bumpSpace
    match ← next? with
    | none =>
      match (← get).groups with
      | group :: _ => flawed .groupUnclosed group.place (group.place + 1)
      | [] => return
    | some c =>
      let repeatable (isRepeatable : Bool) : Check Unit := modify fun s => { s with isRepeatable }
      if c = '(' then openGroup
      else if c = ')' then closeGroup
      else if c = '|' then
        bump 1
        repeatable false
      else if c = '[' then
        bracketed
        repeatable true
      else if c = '?' || c = '*' || c = '+' then repetition
      else if c = '\x7b' then countedRepetition
      else if c = '.' || c = '^' || c = '$' then
        let s ← get
        bump 1
        if c = '.' && !s.switches.isUnicode then doubtful .noText s.place (← here)
        repeatable true
      else
        let start ← here
        let part ← part
        examine part start (← here) false
        repeatable true
      parts limit

/-- What keeps a text from being a pattern, if anything does. The text holds no closing brace. -/
def problem? (pattern : List Char) : Option Problem :=
  match parts (pattern.length + 1) { rest := pattern } with
  | .error fault => some (.unsound pattern fault)
  | .ok ((), checker) =>
    match checker.doubt with
    | some fault => some (.unsound pattern fault)
    | none => if checker.hasWordBoundary then some .wordBoundary else none

/-! ## Messages -/

def lineAt (pattern : List Char) (place : Nat) : Nat := (pattern.take place).count '\n'

def columnAt (pattern : List Char) (place : Nat) : Nat :=
  ((pattern.take place).reverse.takeWhile (· ≠ '\n')).length

def lines (line : List Char) : List Char → List (List Char)
  | [] => if line.isEmpty then [] else [line]
  | c :: rest =>
    if c = '\n' then (if line.getLast? = some '\r' then line.dropLast else line) :: lines [] rest
    else lines (line ++ [c]) rest

def marks (position : Nat) : List Span → List Char
  | [] => []
  | span :: rest =>
    let count := max 1 (span.stop - span.start)
    List.replicate (span.start - position) ' ' ++ List.replicate count '^'
      ++ marks (max position span.start + count) rest

/-- Lines behind their numbers, each with the marks below it. A stretch is given as the places it
    starts and stops at; those that go over a line's end are not marked. -/
def notedLines (pattern : List Char) (spans : List Span) (margin : Nat → List Char) :
    Nat → List (List Char) → List (List Char)
  | _, [] => []
  | number, line :: rest =>
    let isHere := fun span : Span => lineAt pattern span.start = number && lineAt pattern span.stop = number
    let here := (spans.filter isHere).map fun span =>
      (⟨columnAt pattern span.start, columnAt pattern span.stop⟩ : Span)
    let front := margin (number + 1)
    let noted := if here.isEmpty then [] else [List.replicate front.length ' ' ++ marks 0 here]
    (front ++ line) :: noted ++ notedLines pattern spans margin (number + 1) rest

def stretchText (pattern : List Char) (span : Span) : String :=
  let start := s!"on line {lineAt pattern span.start + 1} (column {columnAt pattern span.start + 1})"
  let stop := s!"line {lineAt pattern span.stop + 1} (column {columnAt pattern span.stop})"
  start ++ " through " ++ stop

/-- A fault with the pattern and marks below it. If the pattern has several lines they have numbers. -/
def faultText (pattern : List Char) (fault : Fault) : String :=
  let spans := match fault.original with
    | some original => [original, fault.span]
    | none => [fault.span]
  let lines := lines [] pattern
  let noted (margin : Nat → List Char) : List String :=
    (notedLines pattern spans margin 0 lines).map String.ofList
  let body :=
    if pattern.contains '\n' then
      let width := (toString (lineAt pattern pattern.length + 1)).length
      let margin := fun number : Nat =>
        let digits := (toString number).toList
        List.replicate (width - digits.length) ' ' ++ digits ++ [':', ' ']
      let divider := String.ofList (List.replicate 79 '~')
      let isLong := fun span : Span => lineAt pattern span.start ≠ lineAt pattern span.stop
      divider :: noted margin ++ divider :: (spans.filter isLong).map (stretchText pattern)
    else noted fun _ => List.replicate 4 ' '
  "\n".intercalate ("regex parse error:" :: body ++ ["error: " ++ fault.flaw.message])

def Problem.message : Problem → String
  | .unsound pattern fault =>
    "error building NFA: error building NFA: error parsing regex: " ++ faultText pattern fault
  | .wordBoundary =>
    let text := "unsupported regex feature for DFAs: cannot build DFAs for regexes with Unicode word boundaries; "
      ++ "switch to ASCII word boundaries, or heuristically enable Unicode word boundaries or use a different "
      ++ "regex engine"
    text ++ ": " ++ text

end Skeletons.LogFilter.Pattern
