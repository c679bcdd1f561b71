import Skeletons.Failure
import Skeletons.Value

namespace Skeletons

structure Condition where
  name : String
  test : Value → Except String Bool

structure Execute where
  name : String
  apply : Value → Except String Value

structure Split where
  name : String
  divide : Value → Except String (List Value)

structure Merge where
  name : String
  combine : List Value → Except String Value

def muscleResult {α : Type} (name : String) : Except String α → Except Failure α
  | .ok value => .ok value
  | .error text => .error (.muscle name text)

def Condition.call (condition : Condition) (input : Value) : Except Failure Bool :=
  muscleResult condition.name (condition.test input)

def Execute.call (execute : Execute) (input : Value) : Except Failure Value :=
  muscleResult execute.name (execute.apply input)

def Split.call (split : Split) (input : Value) : Except Failure (List Value) :=
  muscleResult split.name (split.divide input)

def Merge.call (merge : Merge) (results : List Value) : Except Failure Value :=
  muscleResult merge.name (merge.combine results)

def Split.asExecute (split : Split) : Execute where
  name := split.name
  apply input := (split.divide input).map .list

def Condition.describe (condition : Condition) : String := s!"Condition({condition.name})"

def Execute.describe (execute : Execute) : String := s!"Execute({execute.name})"

def Split.describe (split : Split) : String := s!"Split({split.name})"

def Merge.describe (merge : Merge) : String := s!"Merge({merge.name})"

end Skeletons
