import Skeletons.Number

namespace Skeletons

/-- A value of a TOML document. The members of a table stand in the order in which they were given. -/
inductive Toml where
  | text (value : String)
  | integer (value : Int)
  | real (value : Number)
  | bool (value : Bool)
  | moment (text : String)
  | array (items : List Toml)
  | table (members : List (String × Toml))
deriving Inhabited

/-- The whole numbers that TOML holds. -/
def Toml.isInteger (n : Int) : Bool := decide (-Number.signWeight ≤ n ∧ n < Number.signWeight)

end Skeletons
