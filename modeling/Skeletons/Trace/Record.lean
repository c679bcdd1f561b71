import Skeletons.Json.Decode
import Skeletons.RecursionPath
import Skeletons.Trace

namespace Skeletons

def Kind.ofForm? (form : Json.Form) : Option Kind := form.alternative? >>= Kind.ofName?

def Frame.toJson (frame : Frame) : Json :=
  .object [("skeleton", .ofWord frame.skeleton), ("kind", .text frame.kind.name),
    ("instance", .ofWord frame.occurrence)]

def Frame.ofForm? (form : Json.Form) : Option Frame := do
  match ← form.fields? ["skeleton", "kind", "instance"] with
  | [some skeleton, some kind, some occurrence] =>
    return ⟨← skeleton.word?, ← Kind.ofForm? kind, ← occurrence.word?⟩
  | _ => none

def Trace.toJson (trace : Trace) : Json := .array (trace.map Frame.toJson)

def Trace.ofForm? (form : Json.Form) : Option Trace := do (← form.array?).mapM Frame.ofForm?

def RecursionPath.toJson (path : RecursionPath) : Json := .array (path.map .ofWord)

def RecursionPath.ofForm? (form : Json.Form) : Option RecursionPath := do
  (← form.array?).mapM Json.Form.word?

end Skeletons
