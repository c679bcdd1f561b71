namespace Skeletons

inductive Kind where
  | seq
  | pipe
  | ifElse
  | whileLoop
  | forLoop
  | map
  | fork
  | divide
deriving DecidableEq, Inhabited

namespace Kind

def all : List Kind := [.seq, .pipe, .ifElse, .whileLoop, .forLoop, .map, .fork, .divide]

def name : Kind → String
  | .seq => "seq"
  | .pipe => "pipe"
  | .ifElse => "if"
  | .whileLoop => "while"
  | .forLoop => "for"
  | .map => "map"
  | .fork => "fork"
  | .divide => "dac"

def title : Kind → String
  | .seq => "Seq"
  | .pipe => "Pipe"
  | .ifElse => "If"
  | .whileLoop => "While"
  | .forLoop => "For"
  | .map => "Map"
  | .fork => "Fork"
  | .divide => "DaC"

def ofName? (name : String) : Option Kind := all.find? fun kind => kind.name = name

end Kind

/-- One step of a trace: a skeleton node and which of its occurrences is meant. -/
structure Frame where
  skeleton : UInt64
  kind : Kind
  occurrence : UInt64
deriving DecidableEq, Inhabited

/-- A path of nested skeletons, outermost first. Occurrences tell apart the children, iterations and
    recursions in which the same node runs. -/
abbrev Trace := List Frame

inductive TraceFault where
  | noFrame (depth length : Nat)
  | empty
  | emptyDivide
  | described (text : String)
deriving DecidableEq

def TraceFault.message : TraceFault → String
  | .noFrame depth length => s!"no trace element at depth {depth} (trace has {length})"
  | .empty => "trace is empty"
  | .emptyDivide => "divide-and-conquer trace is empty"
  | .described text => text

namespace Trace

def nest (trace : Trace) (frame : Frame) : Trace := trace ++ [frame]

/-- The same path with another occurrence at `depth`; a shorter trace is left as it is. -/
def retag (trace : Trace) (depth : Nat) (occurrence : UInt64) : Trace :=
  trace.modify depth fun frame => { frame with occurrence }

/-- The same path with another occurrence at `depth`, which the trace has to reach. -/
def withOccurrenceAt (trace : Trace) (depth : Nat) (occurrence : UInt64) :
    Except TraceFault Trace :=
  if depth < trace.length then .ok (trace.retag depth occurrence)
  else .error (.noFrame depth trace.length)

def withLastOccurrence (trace : Trace) (occurrence : UInt64) : Except TraceFault Trace :=
  if trace.isEmpty then .error .empty else trace.withOccurrenceAt (trace.length - 1) occurrence

def innermost? (trace : Trace) : Option Frame := trace.getLast?

def frameText (frame : Frame) : String :=
  s!"{frame.kind.title}#{frame.skeleton}:{frame.occurrence}"

def toText (trace : Trace) : String := "[" ++ " / ".intercalate (trace.map frameText) ++ "]"

end Trace

end Skeletons
