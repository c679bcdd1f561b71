import Skeletons.Event
import Skeletons.Timestamp
import Skeletons.Trace.Record
import Skeletons.Value.Tagged

namespace Skeletons

structure EventRecord extends Event where
  time : Timestamp

def Phase.ofForm? (form : Json.Form) : Option Phase := form.alternative? >>= Phase.ofName?

def Point.ofForm? (form : Json.Form) : Option Point := form.alternative? >>= Point.ofName?

namespace EventRecord

def toJson (entry : EventRecord) : Json :=
  .object [("when", .text entry.phase.name), ("where", .text entry.point.name),
    ("trace", entry.trace.toJson), ("payload", entry.payload.toTagged),
    ("at", .text entry.time.toText)]

def ofForm? (form : Json.Form) : Option EventRecord := do
  match ← form.fields? ["when", "where", "trace", "payload", "at"] with
  | [some phase, some point, some trace, some payload, some time] =>
    let event : Event := {
      phase := ← Phase.ofForm? phase
      point := ← Point.ofForm? point
      trace := ← Trace.ofForm? trace
      payload := ← Value.ofTagged? 1 payload }
    return ⟨event, ← time.text? >>= Timestamp.read?⟩
  | _ => none

end EventRecord

end Skeletons
