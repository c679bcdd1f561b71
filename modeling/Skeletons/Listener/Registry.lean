import Skeletons.Event
import Skeletons.Skeleton

namespace Skeletons

structure BadListener where
  listener : Kind
  skeleton : Kind
deriving DecidableEq

def BadListener.message (error : BadListener) : String :=
  s!"Listener for {error.listener.title} skeletons cannot be added to a {error.skeleton.title} skeleton"

structure Registration (L : Type) where
  id : Nat
  listener : L

structure Shelf (L : Type) where
  skeleton : UInt64
  entries : List (Registration L)

/-- Listeners in the order of their registration, those of each skeleton on a shelf of its own. The
    order of the shelves says nothing. A listener registered with one skeleton hears the events of
    that skeleton; one registered in general hears every event. -/
structure Registry (L : Type) where
  shelves : List (Shelf L) := []
  general : List (Registration L) := []
  nextId : Nat := 1

def Shelf.put {L : Type} (skeleton : UInt64) (entry : Registration L) : List (Shelf L) → List (Shelf L)
  | [] => [⟨skeleton, [entry]⟩]
  | shelf :: rest =>
    if shelf.skeleton = skeleton then { shelf with entries := shelf.entries ++ [entry] } :: rest
    else shelf :: put skeleton entry rest

def Shelf.take? {L : Type} (id : Nat) : List (Shelf L) → Option (List (Shelf L))
  | [] => none
  | shelf :: rest =>
    if shelf.entries.any (·.id = id) then
      some ({ shelf with entries := shelf.entries.eraseP (·.id = id) } :: rest)
    else (take? id rest).map (shelf :: ·)

def Shelf.total {L : Type} : List (Shelf L) → Nat
  | [] => 0
  | shelf :: rest => shelf.entries.length + total rest

namespace Registry

variable {L : Type}

/-- Registers a listener with a skeleton. A listener of a declared kind is refused by skeletons of other
    kinds, and the registry stays as it is. -/
def add (registry : Registry L) (skeleton : Skeleton) (declared : Option Kind) (listener : L) :
    Except BadListener (Nat × Registry L) :=
  match declared with
  | some kind =>
    if kind = skeleton.kind then .ok (enrol registry skeleton listener)
    else .error ⟨kind, skeleton.kind⟩
  | none => .ok (enrol registry skeleton listener)
where
  enrol (registry : Registry L) (skeleton : Skeleton) (listener : L) : Nat × Registry L :=
    (registry.nextId, { registry with
      shelves := Shelf.put skeleton.id ⟨registry.nextId, listener⟩ registry.shelves
      nextId := registry.nextId + 1 })

def addGeneral (registry : Registry L) (listener : L) : Nat × Registry L :=
  (registry.nextId, { registry with
    general := registry.general ++ [⟨registry.nextId, listener⟩]
    nextId := registry.nextId + 1 })

def remove (registry : Registry L) (id : Nat) : Bool × Registry L :=
  if registry.general.any (·.id = id) then
    (true, { registry with general := registry.general.eraseP (·.id = id) })
  else
    match Shelf.take? id registry.shelves with
    | some shelves => (true, { registry with shelves })
    | none => (false, registry)

def size (registry : Registry L) : Nat :=
  registry.general.length + Shelf.total registry.shelves

def isEmpty (registry : Registry L) : Bool := registry.size == 0

def describe (registry : Registry L) : String :=
  "ListenerRegistry \x7b listeners: " ++ toString registry.size ++ " \x7d"

def attachedTo (registry : Registry L) (skeleton : UInt64) : List L :=
  match registry.shelves.find? (·.skeleton = skeleton) with
  | none => []
  | some shelf => shelf.entries.map (·.listener)

/-- The listeners that hear an event, in the order in which they hear it: those of the innermost
    skeleton of its trace, then the general ones. -/
def targets (registry : Registry L) (event : Event) : List L :=
  let attached := match event.trace.innermost? with
    | none => []
    | some frame => registry.attachedTo frame.skeleton
  attached ++ registry.general.map fun entry => entry.listener

end Registry

/-- Delivers an event in a state that holds a registry. Whoever is registered at the start is called, in
    order, whatever the called listeners do to the registry meanwhile; `none` from a call ends it. -/
def deliver {L σ : Type} (registry : σ → Registry L) (call : Event → σ → L → Option σ)
    (event : Event) (state : σ) : Option σ :=
  ((registry state).targets event).foldlM (call event) state

end Skeletons
