import Skeletons.Proofs.Stack.Throughout
import Skeletons.Proofs.Task.Lineage

namespace Skeletons

namespace Trace

def labels (trace : Trace) : List (UInt64 × Kind) := trace.map fun frame => (frame.skeleton, frame.kind)

/-- Whether a trace leads from one place further inwards. -/
def Encloses (outer inner : Trace) : Prop := outer <+: inner ∧ outer ≠ inner

theorem labels_retag (trace : Trace) (depth : Nat) (occurrence : UInt64) :
    (trace.retag depth occurrence).labels = trace.labels := by
  simp only [labels, retag]
  induction trace generalizing depth with
  | nil => cases depth <;> rfl
  | cons frame rest ih =>
    cases depth with
    | zero => rfl
    | succ depth => exact congrArg (_ :: ·) (ih depth)

theorem labels_nest (trace : Trace) (frame : Frame) :
    (trace.nest frame).labels = trace.labels ++ [(frame.skeleton, frame.kind)] := List.map_append

theorem prefix_retag {outer inner : Trace} (start : outer <+: inner) (depth : Nat) (occurrence : UInt64) :
    outer.retag depth occurrence <+: inner.retag depth occurrence := by
  obtain ⟨further, rfl⟩ := start
  simp only [retag]
  induction outer generalizing depth with
  | nil =>
    cases depth <;> exact List.nil_prefix
  | cons frame rest ih =>
    cases depth with
    | zero => exact List.prefix_append _ further
    | succ depth => exact List.cons_prefix_cons.mpr ⟨rfl, ih depth⟩

namespace Encloses

variable {outer middle inner : Trace}

theorem length_lt (encloses : outer.Encloses inner) : outer.length < inner.length :=
  Nat.lt_of_le_of_ne encloses.1.length_le fun same => encloses.2 (encloses.1.eq_of_length same)

theorem of_length_lt (start : outer <+: inner) (shorter : outer.length < inner.length) : outer.Encloses inner :=
  ⟨start, fun same => Nat.ne_of_lt shorter (congrArg List.length same)⟩

theorem trans (first : outer.Encloses middle) (second : middle <+: inner) : outer.Encloses inner :=
  of_length_lt (first.1.trans second) (Nat.lt_of_lt_of_le first.length_lt second.length_le)

theorem retag (encloses : outer.Encloses inner) (depth : Nat) (occurrence : UInt64) :
    (outer.retag depth occurrence).Encloses (inner.retag depth occurrence) := by
  refine of_length_lt (prefix_retag encloses.1 depth occurrence) ?_
  simpa using encloses.length_lt

end Encloses

theorem encloses_nest (trace : Trace) (frame : Frame) : trace.Encloses (trace.nest frame) :=
  .of_length_lt (List.prefix_append trace [frame]) (by simp)

end Trace

namespace Skeleton

def label (skeleton : Skeleton) : UInt64 × Kind := (skeleton.id, skeleton.kind)

/-- The nodes on the way from the root of a tree to one of its nodes, both included. -/
inductive Path (root : Skeleton) : List (UInt64 × Kind) → Skeleton → Prop where
  | root : Path root [root.label] root
  | child {labels : List (UInt64 × Kind)} {parent part : Skeleton} :
    Path root labels parent → part ∈ parent.children → Path root (labels ++ [part.label]) part

theorem Path.nest {root parent part : Skeleton} {trace : Trace} (path : root.Path trace.labels parent)
    (member : part ∈ parent.children) : root.Path (trace.nest part.frame).labels part := by
  rw [Trace.labels_nest]
  exact path.child member

end Skeleton

namespace Instruction

/-- Whether an instruction is the split of a division, which holds that division as its only template. -/
def Recursive : Instruction → Prop
  | .split _ _ _ (some _) => True
  | _ => False

/-- Whether the traces of an instruction and of those directly inside it belong together. -/
structure Coherent (root : Skeleton) (instruction : Instruction) : Prop where
  path : ∃ node, root.Path instruction.trace.labels node
  encloses : ¬ instruction.Recursive →
    ∀ part ∈ instruction.parts, ∀ inner ∈ part, instruction.trace.Encloses inner.trace
  recurs : instruction.Recursive →
    ∃ condition split merge solve path,
      instruction.parts = [[.divide condition split merge solve instruction.trace path]]

theorem trace_retag (depth : Nat) (occurrence : UInt64) (instruction : Instruction) :
    (instruction.retag depth occurrence).trace = instruction.trace.retag depth occurrence := by
  cases instruction with
  | _ => rfl

theorem recursive_retag (depth : Nat) (occurrence : UInt64) (instruction : Instruction) :
    (instruction.retag depth occurrence).Recursive ↔ instruction.Recursive := by
  cases instruction with
  | split templates merge trace path => cases path <;> rfl
  | _ => rfl

namespace Coherent

variable {root : Skeleton} {instruction : Instruction}

theorem plain (path : ∃ node, root.Path instruction.trace.labels node) (simple : ¬ instruction.Recursive)
    (encloses : ∀ part ∈ instruction.parts, ∀ inner ∈ part, instruction.trace.Encloses inner.trace) :
    instruction.Coherent root where
  path := path
  encloses _ := encloses
  recurs recursive := absurd recursive simple

theorem inPlace (coherent : instruction.Coherent root) (other : Instruction)
    (simple : ¬ instruction.Recursive) (plain : ¬ other.Recursive) (traces : other.trace = instruction.trace)
    (parts : other.parts = instruction.parts) : other.Coherent root where
  path := traces ▸ coherent.path
  encloses _ := by
    rw [traces, parts]
    exact coherent.encloses simple
  recurs recursive := absurd recursive plain

theorem retag (coherent : instruction.Coherent root) (depth : Nat) (occurrence : UInt64) :
    (instruction.retag depth occurrence).Coherent root where
  path := by
    rw [trace_retag, Trace.labels_retag]
    exact coherent.path
  encloses simple part member inner within := by
    rw [recursive_retag] at simple
    rw [parts_retag] at member
    obtain ⟨original, held, rfl⟩ := List.mem_map.mp member
    obtain ⟨source, among, rfl⟩ := Stack.mem_retag.mp within
    rw [trace_retag, trace_retag]
    exact (coherent.encloses simple original held source among).retag depth occurrence
  recurs recursive := by
    rw [recursive_retag] at recursive
    obtain ⟨condition, split, merge, solve, path, parts⟩ := coherent.recurs recursive
    rw [parts_retag, parts, trace_retag]
    exact ⟨condition, split, merge, Stack.retag depth occurrence solve, path, rfl⟩

end Coherent

end Instruction

namespace Stack

theorem Throughout.retag_coherent {root : Skeleton} {stack : Stack}
    (coherent : Throughout (Instruction.Coherent root) stack) (depth : Nat) (occurrence : UInt64) :
    Throughout (Instruction.Coherent root) (Stack.retag depth occurrence stack) :=
  Everywhere.retag (fun here => ⟨here.retag depth occurrence, rfl⟩) coherent

def Nested (root : Skeleton) (trace : Trace) (stack : Stack) : Prop :=
  Throughout (Instruction.Coherent root) stack ∧ ∀ inner ∈ stack, trace.Encloses inner.trace

theorem Throughout.around {root : Skeleton} {instruction : Instruction} {rest : Stack}
    (coherent : Throughout (Instruction.Coherent root) rest)
    (path : ∃ node, root.Path instruction.trace.labels node) (simple : ¬ instruction.Recursive)
    (nested : ∀ part ∈ instruction.parts, Nested root instruction.trace part) :
    Throughout (Instruction.Coherent root) (instruction :: rest) := by
  have here := Instruction.Coherent.plain path simple fun part member => (nested part member).2
  exact (throughout_cons _ _).mpr ⟨⟨here, fun part member => (nested part member).1⟩, coherent⟩

theorem Throughout.leaf {root : Skeleton} {instruction : Instruction} {rest : Stack}
    (coherent : Throughout (Instruction.Coherent root) rest)
    (path : ∃ node, root.Path instruction.trace.labels node) (simple : ¬ instruction.Recursive)
    (empty : instruction.parts = []) : Throughout (Instruction.Coherent root) (instruction :: rest) := by
  refine coherent.around path simple fun part member => ?_
  rw [empty] at member
  cases member

theorem Throughout.report {root : Skeleton} {phase : Phase} {point : Point} {trace : Trace} {payload : Value}
    {rest : Stack} (coherent : Throughout (Instruction.Coherent root) rest)
    (path : ∃ node, root.Path trace.labels node) :
    Throughout (Instruction.Coherent root) (Skeletons.report phase point trace payload :: rest) :=
  coherent.leaf path not_false rfl

end Stack

namespace Skeleton

open Instruction (Coherent)

theorem prefix_compile : ∀ (skeleton : Skeleton) (trace : Trace),
    ∀ instruction ∈ skeleton.compile trace, trace <+: instruction.trace
  | .pipe _ first second, trace, instruction, member => by
    have upper := prefix_compile first (trace.nest first.frame) instruction
    have lower := prefix_compile second (trace.nest second.frame) instruction
    simp only [compile, List.mem_append, List.mem_cons, List.not_mem_nil, or_false] at member
    rcases member with ((rfl | among) | rfl | rfl | among) | rfl
    · exact List.prefix_rfl
    · exact (trace.encloses_nest first.frame).1.trans (upper among)
    · exact List.prefix_rfl
    · exact List.prefix_rfl
    · exact (trace.encloses_nest second.frame).1.trans (lower among)
    · exact List.prefix_rfl
  | .seq .., trace, instruction, member | .forLoop .., trace, instruction, member => by
    rw [compile] at member
    rw [List.mem_singleton.mp member]
    exact List.prefix_rfl
  | .ifElse .., trace, instruction, member | .whileLoop .., trace, instruction, member
  | .map .., trace, instruction, member | .fork .., trace, instruction, member
  | .divide .., trace, instruction, member => by
    rw [compile] at member
    rcases List.mem_cons.mp member with rfl | last
    · exact List.prefix_rfl
    · rw [List.mem_singleton.mp last]
      exact List.prefix_rfl

theorem nested_compile {root part : Skeleton} {trace : Trace}
    (coherent : Stack.Throughout (Coherent root) (part.compile (trace.nest part.frame))) :
    Stack.Nested root trace (part.compile (trace.nest part.frame)) := by
  refine ⟨coherent, fun inner member => ?_⟩
  exact (trace.encloses_nest part.frame).trans (prefix_compile part (trace.nest part.frame) inner member)

mutual

theorem coherent_compile {root : Skeleton} : ∀ (node : Skeleton) (trace : Trace),
    root.Path trace.labels node → Stack.Throughout (Coherent root) (node.compile trace)
  | .seq _ _, trace, path => by
    rw [compile]
    exact Stack.throughout_nil.leaf ⟨_, path⟩ not_false rfl
  | .pipe _ first second, trace, path => by
    have here : ∃ node, root.Path trace.labels node := ⟨_, path⟩
    have upper := coherent_compile first _ (path.nest (List.mem_cons_self ..))
    have lower := coherent_compile second _
      (path.nest (List.mem_cons_of_mem _ (List.mem_singleton_self _)))
    rw [compile, Stack.throughout_append, Stack.throughout_append]
    exact ⟨⟨upper.report here, (lower.report here).report here⟩, Stack.throughout_nil.report here⟩
  | .ifElse _ _ whenTrue whenFalse, trace, path => by
    have here : ∃ node, root.Path trace.labels node := ⟨_, path⟩
    have positive := nested_compile (coherent_compile whenTrue _ (path.nest (List.mem_cons_self ..)))
    have negative := nested_compile (coherent_compile whenFalse _
      (path.nest (List.mem_cons_of_mem _ (List.mem_singleton_self _))))
    refine Stack.Throughout.report (Stack.throughout_nil.around here not_false ?_) here
    exact List.forall_mem_cons.mpr ⟨positive, List.forall_mem_singleton.mpr negative⟩
  | .whileLoop _ _ body, trace, path => by
    have here : ∃ node, root.Path trace.labels node := ⟨_, path⟩
    have repeated := nested_compile (coherent_compile body _ (path.nest (List.mem_singleton_self _)))
    refine Stack.Throughout.report (Stack.throughout_nil.around here not_false ?_) here
    exact List.forall_mem_singleton.mpr repeated
  | .forLoop _ _ body, trace, path => by
    have here : ∃ node, root.Path trace.labels node := ⟨_, path⟩
    have repeated := nested_compile (coherent_compile body _ (path.nest (List.mem_singleton_self _)))
    exact Stack.throughout_nil.around here not_false (List.forall_mem_singleton.mpr repeated)
  | .map _ _ body _, trace, path => by
    have here : ∃ node, root.Path trace.labels node := ⟨_, path⟩
    have repeated := nested_compile (coherent_compile body _ (path.nest (List.mem_singleton_self _)))
    refine Stack.Throughout.leaf (Stack.throughout_nil.around here not_false ?_) here not_false rfl
    exact List.forall_mem_singleton.mpr repeated
  | .fork _ _ branches _, trace, path => by
    have here : ∃ node, root.Path trace.labels node := ⟨_, path⟩
    have each := coherent_compileAll branches fun branch member => path.nest member
    exact Stack.Throughout.leaf (Stack.throughout_nil.around here not_false each) here not_false rfl
  | .divide _ _ _ solve _, trace, path => by
    have here : ∃ node, root.Path trace.labels node := ⟨_, path⟩
    have leaf := nested_compile (coherent_compile solve _ (path.nest (List.mem_singleton_self _)))
    refine Stack.Throughout.report (Stack.throughout_nil.around here not_false ?_) here
    exact List.forall_mem_singleton.mpr leaf

theorem coherent_compileAll {root : Skeleton} {trace : Trace} : ∀ (branches : List Skeleton),
    (∀ branch ∈ branches, root.Path (trace.nest branch.frame).labels branch) →
      ∀ template ∈ compileAll trace branches, Stack.Nested root trace template
  | [], _, _, member => nomatch member
  | branch :: rest, paths, template, member => by
    rcases List.mem_cons.mp member with rfl | among
    · exact nested_compile (coherent_compile branch _ (paths branch (List.mem_cons_self ..)))
    · exact coherent_compileAll rest (fun other below => paths other (List.mem_cons_of_mem _ below)) template
        among

end

end Skeleton

namespace Stack

variable {root : Skeleton} {limit : Nat} {rest : Stack} {instruction : Instruction} {value : Value}
  {effect : Effect}

open Instruction (Coherent)

theorem coherent_onward (given : Throughout (Coherent root) (instruction :: rest))
    (leads : instruction.Leads limit value effect) : Throughout (Coherent root) (effect.pushed ++ rest) := by
  rw [throughout_cons] at given
  obtain ⟨⟨here, inside⟩, below⟩ := given
  have path := here.path
  cases leads with
  | seq | merge | signal | finished => exact below
  | @ifElse condition whenTrue whenFalse trace outcome =>
    have chosen := here.inPlace (.choice outcome whenTrue whenFalse trace) not_false not_false rfl rfl
    refine .report (.report ?_ path) path
    exact (throughout_cons _ _).mpr ⟨⟨chosen, inside⟩, below.report path⟩
  | @choice outcome whenTrue whenFalse trace =>
    rw [throughout_append]
    refine ⟨?_, below⟩
    cases outcome with
    | false => exact inside whenFalse (List.mem_cons_of_mem _ (List.mem_singleton_self _))
    | true => exact inside whenTrue (List.mem_cons_self ..)
  | split => exact .report (.leaf (below.report path) path not_false rfl) path
  | @divided condition split merge solve trace place =>
    have recurring : Coherent root (.split [[.divide condition split merge solve trace place]] merge trace
        (some place)) :=
      ⟨path, fun simple => absurd trivial simple, fun _ => ⟨condition, split, merge, solve, place, rfl⟩⟩
    have template : Throughout (Coherent root) [.divide condition split merge solve trace place] :=
      (throughout_cons _ _).mpr ⟨⟨here, inside⟩, throughout_nil⟩
    refine .report (.leaf ?_ path not_false rfl) path
    exact (throughout_cons _ _).mpr ⟨⟨recurring, List.forall_mem_singleton.mpr template⟩, below⟩
  | @solved condition split merge solve trace place =>
    have solving := inside solve (List.mem_singleton_self solve)
    refine .report (.report ?_ path) path
    exact (throughout_append _ _).mpr ⟨(throughout_append _ _).mpr ⟨solving, throughout_nil.report path⟩, below⟩
  | @again condition body trace iteration =>
    have repeated := inside body (List.mem_singleton_self body)
    have next := here.inPlace (.whileLoop condition body trace (iteration + 1)) not_false not_false rfl rfl
    have further := (throughout_cons _ _).mpr ⟨⟨next, inside⟩, throughout_nil⟩
    have turn := repeated.retag_coherent trace.length iteration
    refine .report (.report ?_ path) path
    refine (throughout_append _ _).mpr ⟨(throughout_append _ _).mpr ⟨turn, ?_⟩, below⟩
    exact .report (.report further path) path
  | left => exact below.report path
  | @counted times body trace iteration less =>
    have repeated := inside body (List.mem_singleton_self body)
    have next := here.inPlace (.forLoop times body trace (iteration + 1)) not_false not_false rfl rfl
    have further := (throughout_cons _ _).mpr ⟨⟨next, inside⟩, throughout_nil⟩
    have turn := repeated.retag_coherent trace.length iteration
    refine .report ?_ path
    exact (throughout_append _ _).mpr ⟨(throughout_append _ _).mpr ⟨turn, .report further path⟩, below⟩

theorem coherent_spawned (given : Throughout (Coherent root) (instruction :: rest))
    (leads : instruction.Leads limit value effect) :
    ∀ child ∈ effect.children, Throughout (Coherent root) child.stack := by
  intro child member
  rw [throughout_cons] at given
  obtain ⟨⟨here, inside⟩, _⟩ := given
  cases leads with
  | @split templates merge trace path parts children listed shallow built =>
    cases path with
    | none =>
      obtain ⟨index, part, rfl⟩ := Split.mem_spawn_none built member
      have template : Throughout (Coherent root) (Split.templateAt templates index) :=
        Split.templateAt_of inside throughout_nil index
      have tagged := template.retag_coherent trace.length (UInt64.ofNat index)
      exact .report ((throughout_append _ _).mpr ⟨tagged, throughout_nil.report here.path⟩) here.path
    | some path =>
      obtain ⟨condition, split, merge, solve, inner, old, below, index, part, rfl, _, rfl⟩ :=
        Split.mem_spawn_some built member
      obtain ⟨_, _, _, _, _, alone⟩ := here.recurs trivial
      simp only [Instruction.parts, Instruction.trace, List.cons.injEq, Instruction.divide.injEq] at alone
      obtain ⟨⟨⟨-, -, -, -, rfl, -⟩, rfl⟩, -⟩ := alone
      have template := inside _ (List.mem_singleton_self _)
      rw [throughout_cons] at template
      have further := template.1.1.inPlace (.divide condition split merge solve inner
        (path.child (UInt64.ofNat index))) not_false not_false rfl rfl
      have recurring : Throughout (Coherent root) [.divide condition split merge solve inner
          (path.child (UInt64.ofNat index))] :=
        (throughout_cons _ _).mpr ⟨⟨further, template.1.2⟩, throughout_nil⟩
      refine .report (recurring.retag_coherent _ _) ?_
      rw [Trace.labels_retag]
      exact here.path
  | _ => cases member

theorem coherent_kept (root : Skeleton) (limit : Nat) :
    Kept limit fun _ stack => Throughout (Coherent root) stack where
  below given := ((throughout_cons _ _).mp given).2
  onward given leads := coherent_onward given leads
  spawned given leads := coherent_spawned given leads

end Stack

/-- What stands inside an instruction, directly or deeper. -/
inductive Instruction.Inside (outer : Instruction) : Instruction → Prop where
  | direct {part : Stack} {inner : Instruction} : part ∈ outer.parts → inner ∈ part → Inside outer inner
  | deeper {middle inner : Instruction} {part : Stack} :
    Inside outer middle → part ∈ middle.parts → inner ∈ part → Inside outer inner

namespace Stack

variable {holds : Instruction → Prop} {root : Skeleton} {outer inner instruction : Instruction} {stack : Stack}

theorem Throughout.mem (given : Throughout holds stack) (member : instruction ∈ stack) :
    holds instruction ∧ ∀ part ∈ instruction.parts, Throughout holds part :=
  Instruction.everywhere_iff.mp (given instruction member)

theorem Throughout.inside (given : ∀ part ∈ outer.parts, Throughout holds part) (inside : outer.Inside inner) :
    holds inner ∧ ∀ part ∈ inner.parts, Throughout holds part := by
  induction inside with
  | direct member among => exact (given _ member).mem among
  | deeper _ member among ih => exact (ih.2 _ member).mem among

theorem Throughout.encloses (here : outer.Coherent root)
    (within : ∀ part ∈ outer.parts, Throughout (Instruction.Coherent root) part) (inside : outer.Inside inner) :
    outer.trace.Encloses inner.trace ∨
      outer.Recursive ∧ outer.parts = [[inner]] ∧ inner.trace = outer.trace := by
  induction inside with
  | @direct part inner member among =>
    by_cases recursive : outer.Recursive
    · obtain ⟨condition, split, merge, solve, path, alone⟩ := here.recurs recursive
      rw [alone] at member
      cases List.mem_singleton.mp member
      cases List.mem_singleton.mp among
      exact .inr ⟨recursive, alone, rfl⟩
    · exact .inl (here.encloses recursive part member inner among)
  | @deeper middle inner part surrounded member among ih =>
    have between := (Throughout.inside within surrounded).1
    rcases ih with encloses | ⟨recursive, alone, same⟩
    · by_cases again : middle.Recursive
      · obtain ⟨condition, split, merge, solve, path, single⟩ := between.recurs again
        rw [single] at member
        cases List.mem_singleton.mp member
        cases List.mem_singleton.mp among
        exact .inl encloses
      · exact .inl (encloses.trans (between.encloses again part member inner among).1)
    · -- The template of a recursive split is a division, which is no recursive split again.
      obtain ⟨condition, split, merge, solve, path, division⟩ := here.recurs recursive
      rw [alone] at division
      cases division
      rw [← same]
      exact .inl (between.encloses not_false part member inner among)

end Stack

end Skeletons
