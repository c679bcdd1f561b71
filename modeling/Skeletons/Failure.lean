import Skeletons.Trace

namespace Skeletons

inductive ConfigurationError where
  | arityMismatch (expected actual : Nat)
  | notASequence (typeName : String)
  | malformedTrace (fault : TraceFault)
  | depthExceeded (limit : Nat)
deriving DecidableEq

inductive Violation where
  | unresolvedChildren (count : Nat)
  | mergeInput (merge typeName : String)
  | templateCount (count : Nat)
  /-- The template of a recursive split does not start with the instruction that recurs. -/
  | templateHead
  | notResumed
  | described (text : String)
deriving DecidableEq

inductive Failure where
  | configuration (error : ConfigurationError)
  | muscle (name text : String)
  | structural (violation : Violation)
deriving DecidableEq

def ConfigurationError.message : ConfigurationError → String
  | .arityMismatch expected actual =>
    s!"Invalid number of divisions. Expected {expected} but was {actual}"
  | .notASequence typeName => s!"Split input must be a list, got {typeName}"
  | .malformedTrace fault => "Malformed branch trace: " ++ fault.message
  | .depthExceeded limit => s!"Split nesting exceeded the maximum depth of {limit}"

/-- Tasks are anonymous here; their names in messages are left open. -/
def Violation.message : Violation → String
  | .unresolvedChildren count => s!"task <id> stepped with {count} unresolved children"
  | .mergeInput merge typeName =>
    "merge '" ++ merge ++ "' expects the ordered child results, got " ++ typeName
  | .templateCount count => s!"recursive split needs exactly one template, has {count}"
  | .templateHead => "recursive split template must start with a divide-and-conquer instruction"
  | .notResumed => "task <id> could not be resumed"
  | .described text => text

def Failure.message : Failure → String
  | .configuration error => "Configuration error: " ++ error.message
  | .muscle name text => "Muscle '" ++ name ++ "' failed: " ++ text
  | .structural violation => "Structural violation: " ++ violation.message

def Failure.source? : Failure → Option String
  | .configuration error => some error.message
  | .muscle _ text => some text
  | .structural _ => none

def Failure.isConfiguration : Failure → Bool
  | .configuration _ => true
  | _ => false

end Skeletons
