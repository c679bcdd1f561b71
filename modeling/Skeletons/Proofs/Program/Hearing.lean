import Skeletons.Proofs.Listener.Attended
import Skeletons.Proofs.Listener.Roll
import Skeletons.Proofs.Program.Nesting
import Skeletons.Proofs.Stack.Origin
import Skeletons.Proofs.Stack.Raised

namespace Skeletons

open Registry Registry.History

structure Recorder where
  registry : Registry (Option UInt64)
  heard : List (Option UInt64 × Event) := []

namespace Recorder

def hear (event : Event) (recorder : Recorder) (listener : Option UInt64) : Option Recorder :=
  some { recorder with heard := recorder.heard ++ [(listener, event)] }

def log (recorder : Recorder) (listener : Option UInt64) : List Event :=
  (recorder.heard.filter (·.1 = listener)).map (·.2)

/-- Whether the registrations left by some calls are one for each node of a tree, with the listener of the node,
    and a general one. -/
structure Covers (skeleton : Skeleton) (history : History (Option UInt64)) : Prop where
  everywhere : ((roll history).map (·.skeleton)).Perm (none :: skeleton.nodes.map fun node => some node.id)
  fitting : ∀ entry ∈ roll history, entry.listener = entry.skeleton

variable {history : History (Option UInt64)} {recorder last : Recorder}

theorem Covers.listeners {skeleton : Skeleton} (covers : Covers skeleton history)
    (distinct : (skeleton.nodes.map (·.id)).Nodup) {target : Option UInt64}
    (member : target ∈ none :: skeleton.nodes.map fun node => some node.id) :
    (listed (roll history) target).map (·.listener) = [target] := by
  have apart : (none :: skeleton.nodes.map fun node => some node.id).Nodup := by
    refine List.nodup_cons.mpr ⟨by simp, ?_⟩
    have mapped := distinct.map fun _ _ => Option.some.inj
    rwa [List.map_map] at mapped
  have alike : (listed (roll history) target).map (·.listener) =
      ((roll history).filter (·.skeleton = target)).map (·.skeleton) := by
    rw [listed, List.map_map]
    exact List.map_congr_left fun entry held => covers.fitting entry (List.mem_of_mem_filter held)
  have counted : ((roll history).map (·.skeleton)).count target = 1 := by
    rw [covers.everywhere.count_eq]
    exact List.count_eq_one_of_mem apart member
  calc (listed (roll history) target).map (·.listener)
    _ = ((roll history).map (·.skeleton)).filter (· = target) := by
      rw [alike, List.filter_map]
      rfl
    _ = List.replicate 1 target := by
      rw [← counted]
      exact List.filter_eq target
    _ = [target] := rfl

theorem Covers.audience {skeleton node : Skeleton} (covers : Covers skeleton history)
    (distinct : (skeleton.nodes.map (·.id)).Nodup) (member : node ∈ skeleton.nodes) {event : Event} {frame : Frame}
    (innermost : event.trace.innermost? = some frame) (within : frame.skeleton = node.id) :
    audience (roll history) event = [some node.id, none] := by
  have general := covers.listeners distinct (List.mem_cons_self ..)
  have attached := covers.listeners distinct
    (List.mem_cons_of_mem none (List.mem_map.mpr ⟨node, member, rfl⟩))
  rw [Registry.audience, innermost, general]
  dsimp only
  rw [within, attached]
  rfl

end Recorder

/-- A program that runs before recording listeners, alone or on an engine, whichever steps its tasks take next. It
    leads to the events that are told, and to the listeners after them. On an engine a delivery is taken as one
    step, while those of tasks that run at the same time may interleave, as listeners are called outside of any lock. -/
inductive Program.Broadcast (skeleton : Skeleton) (limit : Nat) (input : Value) (recorder : Recorder) :
    List Event → Recorder → Prop where
  | alone {budget : Nat} {run : Run} {last : Recorder} :
    (Program.ofSkeleton skeleton).instantiate.attended Recorder.registry Recorder.hear limit budget input
        recorder = some (run, last) →
      Broadcast skeleton limit input recorder run.events last
  | engine {work : Work} {told : List Event} {last : Recorder} :
    Work.Steps limit (.ready 0 ((Program.ofSkeleton skeleton).task input)) told work →
      told.foldlM (fun recorder event => deliver Recorder.registry Recorder.hear event recorder) recorder =
        some last →
      Broadcast skeleton limit input recorder told last

namespace Program

variable {skeleton : Skeleton} {limit : Nat} {input : Value} {recorder last : Recorder} {told : List Event}

theorem delivered_alone {stack : Stack} {budget : Nat} {run : Run}
    (ran : stack.attended Recorder.registry Recorder.hear limit budget input recorder = some (run, last)) :
    stack.run limit budget input = some run ∧
      run.events.foldlM (fun recorder event => deliver Recorder.registry Recorder.hear event recorder) recorder =
        some last := by
  obtain ⟨came, heard⟩ := Stack.attended_eq_some_iff.mp ran
  exact ⟨(Stack.run_eq_some_iff stack limit budget input _ _).mpr came, heard⟩

theorem Broadcast.delivered (broadcast : Broadcast skeleton limit input recorder told last) :
    told.foldlM (fun recorder event => deliver Recorder.registry Recorder.hear event recorder) recorder =
      some last := by
  cases broadcast with
  | alone ran => exact (delivered_alone ran).2
  | engine _ heard => exact heard

theorem made_start (skeleton : Skeleton) (input : Value) :
    Stack.Made skeleton ((ofSkeleton skeleton).task input).stack := by
  rw [task, instantiate_ofSkeleton]
  exact Skeleton.made_compile skeleton .root

theorem Broadcast.raised (broadcast : Broadcast skeleton limit input recorder told last) :
    ∀ event ∈ told, ∃ node, (Instruction.signal event).MadeFor skeleton node := by
  have kept := Stack.Made.kept skeleton limit
  -- An event is raised from the top of a stack, and all stacks of the run are made for nodes.
  have made {event : Event} {rest : Stack} (given : Stack.Made skeleton (.signal event :: rest)) :
      ∃ node, (Instruction.signal event).MadeFor skeleton node := ((Stack.throughout_cons _ _).mp given).1.1
  cases broadcast with
  | @alone budget run _ ran =>
    have ended := (delivered_alone ran).1
    rw [Stack.run_eq_watch] at ended
    obtain ⟨outcome, _, rfl⟩ := Option.map_eq_some_iff.mp ended
    intro event member
    obtain ⟨_, _, given⟩ := @Stack.Kept.raises _ _ kept budget 0 _ (made_start skeleton input) input event member
    exact made given
  | engine steps _ =>
    intro event member
    obtain ⟨above, task, lineage, raised⟩ := steps.raises.2 event member
    obtain ⟨rest, top⟩ := Task.step_raises raised
    have idle : ((ofSkeleton skeleton).task input).Idle := rfl
    have given := (lineage.keeps kept idle (made_start skeleton input)).1
    rw [top] at given
    exact made given

end Program

theorem Instruction.MadeFor.innermost {root node : Skeleton} {event : Event}
    (made : (Instruction.signal event).MadeFor root node) :
    ∃ frame, event.trace.innermost? = some frame ∧ frame.skeleton = node.id := by
  have label : event.trace.labels.getLast? = some node.label := made.place.1
  rw [Trace.labels, List.getLast?_map] at label
  obtain ⟨frame, innermost, same⟩ := Option.map_eq_some_iff.mp label
  exact ⟨frame, innermost, congrArg Prod.fst same⟩

/-- With distinct identifiers an event is raised for one node only. -/
theorem Instruction.MadeFor.unique {root node other : Skeleton} {event : Event}
    (distinct : (root.nodes.map (·.id)).Nodup) (made : (Instruction.signal event).MadeFor root node)
    (same : (Instruction.signal event).MadeFor root other) : other = node := by
  obtain ⟨frame, innermost, within⟩ := made.innermost
  obtain ⟨again, found, also⟩ := same.innermost
  cases innermost.symm.trans found
  exact List.inj_on_of_nodup_map distinct same.mem_nodes made.mem_nodes (also.symm.trans within)

namespace Program.Broadcast

variable {skeleton : Skeleton} {limit : Nat} {input : Value} {history : History (Option UInt64)}
  {recorder last : Recorder} {told : List Event}

end Program.Broadcast

end Skeletons
