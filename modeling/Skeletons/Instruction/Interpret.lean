import Skeletons.Instruction

namespace Skeletons

structure Child where
  index : Nat
  stack : Stack
  input : Value

/-- What an instruction does when it succeeds. It looks at nothing below its own place in the
    stack. -/
structure Effect where
  value : Value
  pushed : Stack := []
  children : List Child := []
  events : List Event := []

def report (phase : Phase) (point : Point) (trace : Trace) (payload : Value) : Instruction :=
  .signal ⟨phase, point, trace, payload⟩

def countPayload (count : Nat) : Value := .number (.ofNat count)

namespace Split

/-- The child for element `index` of a split: the template between the events that enclose it, with the
    index as occurrence one level below the split. -/
def child (trace : Trace) (template : Stack) (index : Nat) (input : Value) : Child where
  index := index
  stack :=
    report .before .nested trace (countPayload index)
      :: Stack.retag trace.length (UInt64.ofNat index) template
      ++ [report .after .nested trace (countPayload index)]
  input := input

def children (templates : List Stack) (trace : Trace) : Nat → List Value → List Child
  | _, [] => []
  | index, input :: rest =>
    let template := match templates with
      | [only] => only
      | several => several.getD index []
    child trace template index input :: children templates trace (index + 1) rest

/-- The child for element `index` of a recursive split: the divide-and-conquer instruction itself, one
    step further down its path and numbered by that path. -/
def recursion (template : Stack) (path : RecursionPath) (index : Nat) (input : Value) :
    Except Failure Child :=
  let subPath := path.child (UInt64.ofNat index)
  match template with
  | .divide condition split merge solve trace _ :: below =>
    if trace.isEmpty then .error (.configuration (.malformedTrace .emptyDivide))
    else
      let recurring := Instruction.divide condition split merge solve trace subPath :: below
      let occurrence := subPath.id
      let depth := trace.length - 1
      .ok {
        index
        stack := report .before .condition (trace.retag depth occurrence) subPath.payload
          :: Stack.retag depth occurrence recurring
        input }
  | _ => .error (.structural .templateHead)

def recursions (template : Stack) (path : RecursionPath) :
    Nat → List Value → Except Failure (List Child)
  | _, [] => .ok []
  | index, input :: rest => do
    let child ← recursion template path index input
    let others ← recursions template path (index + 1) rest
    return child :: others

/-- The children of a split. Nothing is handed out unless every child can be built. -/
def spawn (templates : List Stack) (trace : Trace) (path : Option RecursionPath)
    (inputs : List Value) : Except Failure (List Child) :=
  match path with
  | none =>
    if templates.length ≠ 1 ∧ inputs.length ≠ templates.length then
      .error (.configuration (.arityMismatch templates.length inputs.length))
    else .ok (children templates trace 0 inputs)
  | some path =>
    match templates with
    | [template] => recursions template path 0 inputs
    | _ => .error (.structural (.templateCount templates.length))

end Split

/-- What an instruction does to the given value, where splits may nest `limit` deep. -/
def Instruction.effect (limit : Nat) (input : Value) : Instruction → Except Failure Effect
  | .seq execute _ => do
    let value ← execute.call input
    return { value }
  | .ifElse condition whenTrue whenFalse trace => do
    let outcome ← condition.call input
    return {
      value := input
      pushed := [
        report .after .condition trace (.bool outcome),
        report .before .nested trace (.bool outcome),
        .choice outcome whenTrue whenFalse trace,
        report .after .nested trace (.bool outcome)] }
  | .choice outcome whenTrue whenFalse _ =>
    return { value := input, pushed := if outcome then whenTrue else whenFalse }
  | .split templates merger trace path => do
    let inputs ← match input with
      | .list items => .ok items
      | other => .error (.configuration (.notASequence other.typeName))
    let depth := trace.length + (path.getD []).length
    if limit < depth then .error (.configuration (.depthExceeded limit))
    else
      let children ← Split.spawn templates trace path inputs
      let payload := match path with
        | none => .null
        | some path => path.payload
      return {
        value := .list []
        pushed := [
          report .before .merge trace payload,
          .merge merger trace,
          report .after .merge trace payload]
        children }
  | .divide condition divider merger solve trace path => do
    let outcome ← condition.call input
    let decided := report .after .condition trace (.bool outcome)
    if outcome then
      let template := [.divide condition divider merger solve trace path]
      return {
        value := input
        pushed := [
          decided,
          .seq divider.asExecute trace,
          .split [template] merger trace (some path)] }
    else
      return {
        value := input
        pushed := decided :: report .before .nested trace path.payload :: solve
          ++ [report .after .nested trace path.payload] }
  | .merge merger _ =>
    match input with
    | .list results => do
      let value ← merger.call results
      return { value }
    | other => .error (.structural (.mergeInput merger.name other.typeName))
  | .signal event => return { value := input, events := [event] }
  | .whileLoop condition body trace iteration => do
    let outcome ← condition.call input
    let decided := report .after .condition trace (.bool outcome)
    let payload := countPayload iteration.toNat
    if outcome then
      return {
        value := input
        pushed := decided :: report .before .nested trace payload
          :: Stack.retag trace.length iteration body
          ++ [report .after .nested trace payload,
            report .before .condition trace .null,
            .whileLoop condition body trace (iteration + 1)] }
    else return { value := input, pushed := [decided] }
  | .forLoop times body trace iteration =>
    if times ≤ iteration then return { value := input }
    else
      let payload := countPayload iteration.toNat
      return {
        value := input
        pushed := report .before .nested trace payload
          :: Stack.retag trace.length iteration body
          ++ [report .after .nested trace payload,
            .forLoop times body trace (iteration + 1)] }

end Skeletons
