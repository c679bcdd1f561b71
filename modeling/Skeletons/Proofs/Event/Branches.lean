import Skeletons.Instruction.Interpret

namespace Skeletons

@[simp] theorem Trace.innermost?_nest (trace : Trace) (frame : Frame) :
    (trace.nest frame).innermost? = some frame := List.getLast?_concat

namespace Event

def kind? (event : Event) : Option Kind := event.trace.innermost?.map (·.kind)

def isBranch (event : Event) : Bool :=
  event.isAt .before .condition && [some Kind.ifElse, some Kind.divide].contains event.kind?

def branches (events : List Event) : List Trace := (events.filter isBranch).map (·.trace)

@[simp] theorem branches_nil : branches [] = [] := rfl

theorem branches_append (first second : List Event) :
    branches (first ++ second) = branches first ++ branches second := by
  simp [branches]

def startsRecursion (event : Event) : Bool :=
  event.isAt .before .condition && decide (event.kind? = some .divide)

def startsNumbered (event : Event) : Bool :=
  event.isAt .before .nested && [some Kind.map, some .fork, some .whileLoop, some .forLoop].contains event.kind?

def Announced (events : List Event) (path : RecursionPath) : Prop :=
  path.payload ∈ (events.filter startsRecursion).map (·.payload)

/-- Whether a child of a split or a round of a loop is reported under a number among some events. -/
def Counted (events : List Event) (index : Nat) : Prop :=
  countPayload index ∈ (events.filter startsNumbered).map (·.payload)

/-- Whether no recursion among some events, the root apart, has a certain number. -/
def Free (events : List Event) (number : UInt64) : Prop :=
  ∀ path, Announced events path → path ≠ [] → path.id ≠ number

/-- Among some events, the numbers of recursions tell their paths apart, and those of paths other than the
    root are no numbers of children or rounds. -/
structure IdsApart (events : List Event) : Prop where
  injective {first second : RecursionPath} :
    Announced events first → Announced events second → first.id = second.id → first = second
  nonzero : Free events 0
  uncounted {index : Nat} : Counted events index → Free events (UInt64.ofNat index)

theorem announced_of_mem {events : List Event} {event : Event} {path : RecursionPath} (member : event ∈ events)
    (starts : event.startsRecursion = true) (same : event.payload = path.payload) : Announced events path := by
  rw [Announced, ← same]
  exact List.mem_map_of_mem (List.mem_filter.mpr ⟨member, starts⟩)

theorem counted_of_mem {events : List Event} {event : Event} {index : Nat} (member : event ∈ events)
    (starts : event.startsNumbered = true) (same : event.payload = countPayload index) : Counted events index := by
  rw [Counted, ← same]
  exact List.mem_map_of_mem (List.mem_filter.mpr ⟨member, starts⟩)

end Event

end Skeletons
