import Skeletons.LogFilter.Pattern
import Skeletons.Setting

namespace Skeletons.LogFilter

inductive Fault where
  | level
  | directive
  | field (problem : Pattern.Problem)
deriving DecidableEq

def Fault.message : Fault → String
  | .level => "error parsing level filter"
  | .directive => "invalid filter directive"
  | .field problem => "invalid field filter: " ++ problem.message

inductive Level where
  | off
  | error
  | warn
  | info
  | debug
  | trace
deriving DecidableEq

namespace Level

def all : List Level := [.off, .error, .warn, .info, .debug, .trace]

def name : Level → String
  | .off => "off"
  | .error => "error"
  | .warn => "warn"
  | .info => "info"
  | .debug => "debug"
  | .trace => "trace"

def rank (level : Level) : Nat := all.idxOf level

/-- The level that a word names. No word at all names one too, and levels have numbers. -/
def ofWord? (word : String) : Option Level :=
  if word.isEmpty then some .error
  else (all.find? fun level => level.name = lowerCase word).or (Setting.readCount? word >>= (all[·]?))

def color : Level → String
  | .off => "0"
  | .error => "31"
  | .warn => "33"
  | .info => "32"
  | .debug => "34"
  | .trace => "35"

def column (level : Level) : String :=
  let name := level.name.toList.map Char.toUpper
  String.ofList (List.replicate (5 - name.length) ' ' ++ name)

end Level

structure Directive where
  /-- What the names of the targets start with that the directive is for. -/
  target : List Char := []
  spanned : Bool := false
  fields : List String := []
  valued : Bool := false
  level : Level := .trace

/-! ## Fields -/

def cut (start stop offset : Nat) : List Char → List Char
  | [] => []
  | c :: rest =>
    if start ≤ offset ∧ offset < stop then c :: cut start stop (offset + c.utf8Size) rest
    else cut start stop (offset + c.utf8Size) rest

def isPlainValue (value : String) : Bool :=
  value = "true" || value = "false" || (Setting.readReal? value).isSome

/-- A field: a name, or a name and a value. Any other value than a plain one is a pattern. What follows a
    second equals sign does not count. -/
def readField (field : List Char) (directive : Directive) : Except Fault Directive :=
  let directive := { directive with fields := [String.ofList (field.takeWhile (· ≠ '='))] }
  match field.dropWhile (· ≠ '=') with
  | [] => .ok directive
  | _ :: rest =>
    let value := rest.takeWhile (· ≠ '=')
    if isPlainValue (String.ofList value) then .ok { directive with valued := true }
    else match Pattern.problem? value with
      | some problem => .error (.field problem)
      | none => .ok { directive with valued := true }

/-! ## Directives -/

inductive Place where
  | start
  | word
  | span (opened : Nat)
  | field (opened : Nat)
  | afterFields
  | afterSpan
  | level (name : List Char)
deriving DecidableEq

/-- The place after a character at an offset, and the directive so far. Its parts are cut out of the whole text. -/
def Place.next (text : List Char) (offset : Nat) (directive : Directive) :
    Place → Char → Except Fault (Place × Directive)
  | .start, c =>
    if c = '[' then .ok (.span (offset + 1), directive)
    else if isWordCharacter c || ['-', ':', '_'].contains c then .ok (.word, directive)
    else .error .directive
  | .word, c =>
    let targeted := { directive with target := cut 0 offset 0 text }
    if c = '=' then .ok (.level [], targeted)
    else if c = '[' then .ok (.span (offset + 1), targeted)
    else .ok (.word, directive)
  | .span opened, c =>
    if c = ']' then .ok (.afterSpan, { directive with spanned := true })
    else if c = '\x7b' then .ok (.field (offset + 1), { directive with spanned := decide (opened < offset) })
    else .ok (.span opened, directive)
  | .field opened, c =>
    if c ≠ '\x7d' then .ok (.field opened, directive)
    else if opened = offset then .error .directive
    else do return (.afterFields, ← readField (cut opened offset 0 text) directive)
  | .afterFields, c => if c = ']' then .ok (.afterSpan, directive) else .error .directive
  | .afterSpan, c => if c = '=' then .ok (.level [], directive) else .error .directive
  | .level name, c => .ok (.level (name ++ [c]), directive)

def Place.walk (text : List Char) (offset : Nat) (directive : Directive) (place : Place) :
    List Char → Except Fault (Place × Directive)
  | [] => .ok (place, directive)
  | c :: rest => do
    let (place, directive) ← place.next text offset directive c
    walk text (offset + c.utf8Size) directive place rest

/-- A directive. It may have blanks on either side, but then nothing counts as a level, and blanks in front shift
    the places at which its parts are cut out. A word that is no level is a target, all of which is reported. -/
def readDirective (text : List Char) : Except Fault Directive := do
  let trimmed := dropBlanksRight (dropBlanks text)
  let levelOf (name : List Char) := if trimmed = text then Level.ofWord? (String.ofList name) else none
  match ← Place.start.walk text 0 {} trimmed with
  | (.word, directive) =>
    match levelOf text with
    | some level => return { directive with level }
    | none => return { directive with target := text }
  | (.afterSpan, directive) => return directive
  | (.level name, directive) =>
    match levelOf name with
    | some level => return { directive with level }
    | none => throw .level
  | _ => throw .directive

def directives (text : List Char) : List (List Char) :=
  match text with
  | [] => [[]]
  | ',' :: rest => [] :: directives rest
  | c :: rest =>
    match directives rest with
    | first :: others => (c :: first) :: others
    | [] => [[c]]

/-- A filter; of several faults the first one is reported. Between two commas there may be nothing. -/
def read (filter : String) : Except Fault (List Directive) :=
  ((directives filter.toList).filter fun text => !text.isEmpty).mapM readDirective

/-! ## Messages -/

structure Message where
  level : Level
  target : String
  text : String
  fields : List (String × String)

/-- Whether a directive speaks about a message outside of all spans. What is said counts as a field. -/
def Directive.concerns (directive : Directive) (message : Message) : Bool :=
  !directive.spanned && !directive.valued && directive.target.isPrefixOf message.target.toList
    && directive.fields.all ("message" :: message.fields.map (·.1)).contains

/-- Whether a directive goes before another one that concerns the same message: the longer target first, then the
    fields, and a later directive before an earlier one that is as special. -/
def Directive.outweighs (later earlier : Directive) : Bool :=
  earlier.target.length < later.target.length
    || earlier.target.length = later.target.length && !decide (later.fields < earlier.fields)

def decisive? (filter : List Directive) (message : Message) : Option Directive :=
  (filter.filter (·.concerns message)).foldl (fun earlier later =>
    if earlier.all later.outweighs then some later else earlier) none

def admits (filter : List Directive) (message : Message) : Bool :=
  (decisive? filter message).any fun directive => message.level.rank ≤ directive.level.rank

def styled (colors : Bool) (style text : String) : String :=
  if colors then "\x1b[" ++ style ++ "m" ++ text ++ "\x1b[0m" else text

/-- The line of a message. Its time is left open. -/
def Message.render (colors : Bool) (message : Message) : String :=
  let dim := styled colors "2"
  let fields := message.fields.map fun (name, value) =>
    " " ++ styled colors "3" name ++ dim "=" ++ value
  dim "<time>" ++ " " ++ styled colors message.level.color message.level.column ++ " "
    ++ dim message.target ++ dim ":" ++ " " ++ message.text ++ String.join fields

end Skeletons.LogFilter
