import Skeletons.Setting

namespace Skeletons

abbrev Environment := List (String × String)

namespace Environment

def value? (environment : Environment) (name : String) : Option String := environment.lookup name

def withDots : List Char → List Char
  | '_' :: '_' :: rest => '.' :: withDots rest
  | c :: rest => c :: withDots rest
  | [] => []

/-- The settings among the variables. They are the variables whose names start with `lead`, given in lower
    case; the rest of a name spells the path of its setting, with two underscores between the steps. -/
def settings (environment : Environment) (lead : String) : List (String × Setting) :=
  environment.filterMap fun (name, value) =>
    let name := name.toList.map lowered
    if lead.toList.isPrefixOf name then
      some (String.ofList (withDots (name.drop lead.length)), Setting.ofVariable value)
    else none

end Environment

end Skeletons
