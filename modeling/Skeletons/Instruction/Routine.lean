import Skeletons.Instruction.Interpret

namespace Skeletons

/-! ## Renumbering -/

def Trace.renumber (trace : Trace) (depth : Nat) (occurrence : UInt64) : Except TraceFault Trace :=
  if depth < trace.length then trace.withOccurrenceAt depth occurrence else .ok trace

mutual

/-- Renumbers the traces of an instruction one by one, and stops at the first that cannot be. -/
def Instruction.renumber (depth : Nat) (occurrence : UInt64) :
    Instruction → Except TraceFault Instruction
  | .seq execute trace => return .seq execute (← trace.renumber depth occurrence)
  | .ifElse condition whenTrue whenFalse trace => do
    let trace ← trace.renumber depth occurrence
    let whenTrue ← Stack.renumber depth occurrence whenTrue
    let whenFalse ← Stack.renumber depth occurrence whenFalse
    return .ifElse condition whenTrue whenFalse trace
  | .choice outcome whenTrue whenFalse trace => do
    let trace ← trace.renumber depth occurrence
    let whenTrue ← Stack.renumber depth occurrence whenTrue
    let whenFalse ← Stack.renumber depth occurrence whenFalse
    return .choice outcome whenTrue whenFalse trace
  | .split templates merge trace path => do
    let trace ← trace.renumber depth occurrence
    return .split (← Stack.renumberAll depth occurrence templates) merge trace path
  | .divide condition split merge solve trace path => do
    let trace ← trace.renumber depth occurrence
    return .divide condition split merge (← Stack.renumber depth occurrence solve) trace path
  | .merge merge trace => return .merge merge (← trace.renumber depth occurrence)
  | .signal event => return .signal { event with trace := ← event.trace.renumber depth occurrence }
  | .whileLoop condition body trace iteration => do
    let trace ← trace.renumber depth occurrence
    return .whileLoop condition (← Stack.renumber depth occurrence body) trace iteration
  | .forLoop times body trace iteration => do
    let trace ← trace.renumber depth occurrence
    return .forLoop times (← Stack.renumber depth occurrence body) trace iteration

def Stack.renumber (depth : Nat) (occurrence : UInt64) :
    List Instruction → Except TraceFault (List Instruction)
  | [] => return []
  | instruction :: rest =>
    return (← instruction.renumber depth occurrence) :: (← Stack.renumber depth occurrence rest)

def Stack.renumberAll (depth : Nat) (occurrence : UInt64) :
    List (List Instruction) → Except TraceFault (List (List Instruction))
  | [] => return []
  | stack :: rest =>
    return (← Stack.renumber depth occurrence stack) :: (← Stack.renumberAll depth occurrence rest)

end

def Stack.numbered (depth : Nat) (occurrence : UInt64) (stack : Stack) : Except Failure Stack :=
  (Stack.renumber depth occurrence stack).mapError fun fault => .configuration (.malformedTrace fault)

/-! ## Children -/

namespace Split

def buildChild (trace : Trace) (template : Stack) (index : Nat) (input : Value) : Except Failure Child := do
  let nested ← Stack.numbered trace.length (UInt64.ofNat index) (Stack.copy template)
  let payload := countPayload index
  let stack := report .before .nested trace payload :: nested ++ [report .after .nested trace payload]
  return { index, stack, input }

def buildChildren (templates : List Stack) (trace : Trace) : Nat → List Value → Except Failure (List Child)
  | _, [] => return []
  | index, input :: rest => do
    let template := match templates with
      | [only] => only
      | several => several.getD index []
    let child ← buildChild trace template index input
    let others ← buildChildren templates trace (index + 1) rest
    return child :: others

/-- One recursion of a recursive split. The division on top of the copy is given its path before the copy is
    numbered, and the event above it takes its trace from the numbered copy. -/
def buildRecursion (template : Stack) (path : RecursionPath) (index : Nat) (input : Value) :
    Except Failure Child := do
  let subPath := path.child (UInt64.ofNat index)
  match Stack.copy template with
  | .divide condition split merge solve trace _ :: below =>
    if trace.isEmpty then
      throw (.configuration (.malformedTrace .emptyDivide))
    let nested ← Stack.numbered (trace.length - 1) subPath.id
      (.divide condition split merge solve trace subPath :: below)
    let top := (nested.head?.map Instruction.trace).getD []
    return { index, stack := report .before .condition top subPath.payload :: nested, input }
  | _ => throw (.structural .templateHead)

def buildRecursions (template : Stack) (path : RecursionPath) : Nat → List Value → Except Failure (List Child)
  | _, [] => return []
  | index, input :: rest => do
    let child ← buildRecursion template path index input
    let others ← buildRecursions template path (index + 1) rest
    return child :: others

def build (templates : List Stack) (trace : Trace) (path : Option RecursionPath) (inputs : List Value) :
    Except Failure (List Child) := do
  match path with
  | none =>
    if templates.length ≠ 1 ∧ inputs.length ≠ templates.length then
      throw (.configuration (.arityMismatch templates.length inputs.length))
    buildChildren templates trace 0 inputs
  | some path =>
    let [template] := templates
      | throw (.structural (.templateCount templates.length))
    buildRecursions template path 0 inputs

end Split

/-! ## Acts -/

structure Bench where
  stack : Stack
  children : List Child
  events : List Event

/-- Work on a bench. A failure ends the work and leaves the bench as it is at that moment. -/
abbrev Working := ExceptT Failure (StateM Bench)

namespace Working

def push (instruction : Instruction) : Working Unit :=
  modify fun bench => { bench with stack := instruction :: bench.stack }

def pushStack (stack : Stack) : Working Unit :=
  modify fun bench => { bench with stack := stack ++ bench.stack }

def handOut (children : List Child) : Working Unit :=
  modify fun bench => { bench with children := bench.children ++ children }

def notify (event : Event) : Working Unit :=
  modify fun bench => { bench with events := bench.events ++ [event] }

end Working

open Working in
/-- Carries out an instruction on a value, where splits may nest `limit` deep. What is pushed last runs first. -/
def Instruction.carryOut (limit : Nat) (input : Value) : Instruction → Working Value
  | .seq execute _ => execute.call input
  | .ifElse condition whenTrue whenFalse trace => do
    let outcome ← condition.call input
    push (report .after .nested trace (.bool outcome))
    push (.choice outcome whenTrue whenFalse trace)
    push (report .before .nested trace (.bool outcome))
    push (report .after .condition trace (.bool outcome))
    return input
  | .choice outcome whenTrue whenFalse _ => do
    pushStack (if outcome then whenTrue else whenFalse)
    return input
  | .split templates merger trace path => do
    let .list inputs := input
      | throw (.configuration (.notASequence input.typeName))
    if limit < trace.length + (path.getD []).length then
      throw (.configuration (.depthExceeded limit))
    let spawned ← Split.build templates trace path inputs
    handOut spawned
    let payload := path.elim .null RecursionPath.payload
    push (report .after .merge trace payload)
    push (.merge merger trace)
    push (report .before .merge trace payload)
    return .list []
  | .divide condition divider merger solve trace path => do
    let outcome ← condition.call input
    if outcome then
      push (.split [[.divide condition divider merger solve trace path]] merger trace (some path))
      push (.seq divider.asExecute trace)
    else
      push (report .after .nested trace path.payload)
      pushStack solve
      push (report .before .nested trace path.payload)
    push (report .after .condition trace (.bool outcome))
    return input
  | .merge merger _ => do
    let .list results := input
      | throw (.structural (.mergeInput merger.name input.typeName))
    merger.call results
  | .signal event => do
    notify event
    return input
  | .whileLoop condition body trace iteration => do
    let outcome ← condition.call input
    if outcome then
      let payload := countPayload iteration.toNat
      let round ← Stack.numbered trace.length iteration (Stack.copy body)
      push (.whileLoop condition body trace (iteration + 1))
      push (report .before .condition trace .null)
      push (report .after .nested trace payload)
      pushStack round
      push (report .before .nested trace payload)
    push (report .after .condition trace (.bool outcome))
    return input
  | .forLoop times body trace iteration => do
    if times ≤ iteration then
      return input
    let payload := countPayload iteration.toNat
    let round ← Stack.numbered trace.length iteration (Stack.copy body)
    push (.forLoop times body trace (iteration + 1))
    push (report .after .nested trace payload)
    pushStack round
    push (report .before .nested trace payload)
    return input

structure Interpreted where
  result : Except Failure Value
  stack : Stack
  children : List Child
  events : List Event

def Instruction.interpret (instruction : Instruction) (limit : Nat) (input : Value) (stack : Stack)
    (children : List Child) : Interpreted :=
  let (result, bench) := (instruction.carryOut limit input).run.run ⟨stack, children, []⟩
  ⟨result, bench.stack, bench.children, bench.events⟩

end Skeletons
