import Skeletons.Proofs.Skeleton.Nodes
import Skeletons.Proofs.Stack.Coherent

namespace Skeletons

namespace Skeleton

/-- The nodes of a tree and the traces for which they are compiled. -/
inductive Stands (root : Skeleton) : Skeleton → Trace → Prop where
  | root : Stands root root (Trace.nest [] root.frame)
  | part {parent part : Skeleton} {trace : Trace} :
    Stands root parent trace → part ∈ parent.children → Stands root part (trace.nest part.frame)

def own (trace : Trace) : Skeleton → Stack
  | .pipe .. => [
      report .before .nested trace (countPayload 0), report .after .nested trace (countPayload 0),
      report .before .nested trace (countPayload 1), report .after .nested trace (countPayload 1)]
  | node => node.compile trace

theorem Stands.last_label {root node : Skeleton} {trace : Trace} (stands : root.Stands node trace) :
    trace.labels.getLast? = some node.label := by
  cases stands with
  | root => rfl
  | part _ _ =>
    rw [Trace.labels_nest, List.getLast?_concat]
    rfl

theorem Stands.mem_nodes {root node : Skeleton} {trace : Trace} (stands : root.Stands node trace) :
    node ∈ root.nodes := by
  induction stands with
  | root => exact root.mem_nodes_self
  | @part _ part _ _ child ih => exact mem_nodes_trans ih (mem_nodes_of_part child part.mem_nodes_self)

theorem trace_own {node : Skeleton} {trace : Trace} {instruction : Instruction}
    (member : instruction ∈ node.own trace) : instruction.trace = trace := by
  cases node with
  | _ =>
    simp only [own, compile, List.mem_cons, List.not_mem_nil, or_false] at member
    rcases member with rfl | rfl | rfl | rfl <;> rfl

theorem parts_compileAll {trace : Trace} {branches : List Skeleton} {stack : Stack}
    (member : stack ∈ compileAll trace branches) :
    ∃ part ∈ branches, stack = part.compile (trace.nest part.frame) := by
  induction branches with
  | nil => cases member
  | cons branch rest ih =>
    rcases List.mem_cons.mp member with rfl | among
    · exact ⟨branch, List.mem_cons_self .., rfl⟩
    · obtain ⟨part, held, same⟩ := ih among
      exact ⟨part, List.mem_cons_of_mem _ held, same⟩

theorem compile_cases {node : Skeleton} {trace : Trace} {instruction : Instruction}
    (member : instruction ∈ node.compile trace) :
    (instruction ∈ node.own trace ∧ ∀ stack ∈ instruction.parts,
        ∃ part ∈ node.children, stack = part.compile (trace.nest part.frame)) ∨
      ∃ part ∈ node.children, instruction ∈ part.compile (trace.nest part.frame) := by
  cases node with
  -- Only the parts of a sequence stand on the stack itself; those of other nodes are inside its instructions.
  | pipe id first second =>
    simp only [compile, List.mem_append, List.mem_cons, List.not_mem_nil, or_false] at member
    rcases member with ((rfl | upper) | rfl | rfl | lower) | rfl
    · exact .inl ⟨by simp [own], nofun⟩
    · exact .inr ⟨first, List.mem_cons_self .., upper⟩
    · exact .inl ⟨by simp [own], nofun⟩
    · exact .inl ⟨by simp [own], nofun⟩
    · exact .inr ⟨second, List.mem_cons_of_mem _ (List.mem_singleton_self _), lower⟩
    · exact .inl ⟨by simp [own], nofun⟩
  | fork id split branches merge =>
    refine .inl ⟨member, ?_⟩
    simp only [compile, List.mem_cons, List.not_mem_nil, or_false] at member
    rcases member with rfl | rfl
    · exact nofun
    · exact fun stack held => parts_compileAll held
  | _ =>
    refine .inl ⟨member, ?_⟩
    simp only [compile, List.mem_cons, List.not_mem_nil, or_false] at member
    rcases member with rfl | rfl <;> simp [Instruction.parts, report, children]

end Skeleton

namespace Instruction

/-- Whether an instruction is a copy of another, renumbered, or further down the path of a division. -/
inductive CopiedAs (original : Instruction) : Instruction → Prop where
  | same : CopiedAs original original
  | renumbered {copy : Instruction} (depth : Nat) (occurrence : UInt64) :
    CopiedAs original copy → CopiedAs original (copy.retag depth occurrence)
  | descended {condition : Condition} {split : Split} {merge : Merge} {solve : Stack} {trace : Trace}
      {path : RecursionPath} (further : RecursionPath) :
    CopiedAs original (.divide condition split merge solve trace path) →
      CopiedAs original (.divide condition split merge solve trace further)

def Lends (instruction copy : Instruction) : Prop :=
  ∃ part ∈ instruction.parts, ∃ inner ∈ part, inner.CopiedAs copy

/-- Whether an instruction was made for a node: when compiling the node wrote it, when it is a copy of one made for
    the node, or when interpreting one made for the node wrote it. What is only handed on was made for another node.
    Traces play no part. -/
inductive MadeFor (root node : Skeleton) : Instruction → Prop where
  | compiled {trace : Trace} {instruction : Instruction} :
    root.Stands node trace → instruction ∈ node.own trace → MadeFor root node instruction
  | copied {original copy : Instruction} :
    MadeFor root node original → original.CopiedAs copy → MadeFor root node copy
  | pushed {limit : Nat} {value : Value} {effect : Effect} {instruction written : Instruction} :
    MadeFor root node instruction → instruction.Leads limit value effect → written ∈ effect.pushed →
      ¬ instruction.Lends written → MadeFor root node written
  | spawned {limit : Nat} {value : Value} {effect : Effect} {child : Child} {instruction written : Instruction} :
    MadeFor root node instruction → instruction.Leads limit value effect → child ∈ effect.children →
      written ∈ child.stack → ¬ instruction.Lends written → MadeFor root node written

namespace CopiedAs

variable {original copy : Instruction}

theorem labels (copied : original.CopiedAs copy) : copy.trace.labels = original.trace.labels := by
  induction copied with
  | same => rfl
  | renumbered depth occurrence _ ih => rw [trace_retag, Trace.labels_retag, ih]
  | descended _ _ ih => exact ih

theorem throughout {holds : Instruction → Prop} (copied : original.CopiedAs copy)
    (kept : ∀ {instruction} depth occurrence, holds instruction → holds (instruction.retag depth occurrence))
    (inside : ∀ part ∈ original.parts, Stack.Throughout holds part) :
    ∀ part ∈ copy.parts, Stack.Throughout holds part := by
  induction copied with
  | same => exact inside
  | renumbered depth occurrence _ ih =>
    intro part member
    rw [parts_retag] at member
    obtain ⟨source, held, rfl⟩ := List.mem_map.mp member
    exact Stack.Everywhere.retag (fun here => ⟨kept depth occurrence here, rfl⟩) (ih source held)
  | descended _ _ ih => exact ih

end CopiedAs

/-- What an instruction writes when it is interpreted, as far as it does not hand it on. -/
structure Writes (instruction written : Instruction) : Prop where
  trace : written.trace = instruction.trace
  recurs : written.Recursive → written.parts = [[instruction]]
  parts : ∀ part ∈ written.parts, part ∈ instruction.parts ∨ part = [instruction]

theorem Writes.leaf {instruction written : Instruction} (trace : written.trace = instruction.trace)
    (simple : ¬ written.Recursive) (empty : written.parts = []) : instruction.Writes written where
  trace := trace
  recurs recursive := absurd recursive simple
  parts part member := by
    rw [empty] at member
    cases member

section

variable {limit : Nat} {value : Value} {effect : Effect} {instruction written : Instruction}

theorem lends_retag {part : Stack} {depth : Nat} {occurrence : UInt64} (held : part ∈ instruction.parts)
    (member : written ∈ Stack.retag depth occurrence part) : instruction.Lends written := by
  obtain ⟨inner, among, rfl⟩ := Stack.mem_retag.mp member
  exact ⟨part, held, inner, among, .renumbered depth occurrence .same⟩

theorem Leads.pushed_cases (leads : instruction.Leads limit value effect) (member : written ∈ effect.pushed) :
    instruction.Lends written ∨ instruction.Writes written := by
  cases leads with
  | seq | merge | signal | finished => cases member
  | ifElse =>
    simp only [List.mem_cons, List.not_mem_nil, or_false] at member
    rcases member with rfl | rfl | rfl | rfl
    · exact .inr (.leaf rfl not_false rfl)
    · exact .inr (.leaf rfl not_false rfl)
    · exact .inr ⟨rfl, nofun, fun part held => .inl held⟩
    · exact .inr (.leaf rfl not_false rfl)
  | @choice outcome whenTrue whenFalse trace =>
    refine .inl ?_
    cases outcome with
    | false => exact ⟨whenFalse, List.mem_cons_of_mem _ (List.mem_singleton_self _), written, member, .same⟩
    | true => exact ⟨whenTrue, List.mem_cons_self .., written, member, .same⟩
  | split | left =>
    simp only [Stack.merging, List.mem_cons, List.not_mem_nil, or_false] at member
    rcases member with rfl | rfl | rfl <;> exact .inr (.leaf rfl not_false rfl)
  | divided =>
    simp only [List.mem_cons, List.not_mem_nil, or_false] at member
    rcases member with rfl | rfl | rfl
    · exact .inr (.leaf rfl not_false rfl)
    · exact .inr (.leaf rfl not_false rfl)
    · exact .inr ⟨rfl, fun _ => rfl, fun part held => .inr (List.mem_singleton.mp held)⟩
  | @solved condition split merge solve trace path =>
    simp only [List.cons_append, List.mem_cons, List.mem_append, List.not_mem_nil, or_false] at member
    rcases member with rfl | rfl | inside | rfl
    · exact .inr (.leaf rfl not_false rfl)
    · exact .inr (.leaf rfl not_false rfl)
    · exact .inl ⟨solve, List.mem_singleton_self _, written, inside, .same⟩
    · exact .inr (.leaf rfl not_false rfl)
  | @again condition body trace iteration =>
    simp only [List.cons_append, List.mem_cons, List.mem_append, List.not_mem_nil, or_false] at member
    rcases member with rfl | rfl | inside | rfl | rfl | rfl
    · exact .inr (.leaf rfl not_false rfl)
    · exact .inr (.leaf rfl not_false rfl)
    · exact .inl (lends_retag (List.mem_singleton_self _) inside)
    · exact .inr (.leaf rfl not_false rfl)
    · exact .inr (.leaf rfl not_false rfl)
    · exact .inr ⟨rfl, nofun, fun part held => .inl held⟩
  | @counted times body trace iteration =>
    simp only [List.cons_append, List.mem_cons, List.mem_append, List.not_mem_nil, or_false] at member
    rcases member with rfl | inside | rfl | rfl
    · exact .inr (.leaf rfl not_false rfl)
    · exact .inl (lends_retag (List.mem_singleton_self _) inside)
    · exact .inr (.leaf rfl not_false rfl)
    · exact .inr ⟨rfl, nofun, fun part held => .inl held⟩

def Level (instruction : Instruction) : Prop :=
  instruction.Recursive → ∀ inner below, instruction.parts = [inner :: below] →
    inner.trace.labels = instruction.trace.labels

theorem Level.plain (simple : ¬ instruction.Recursive) : instruction.Level :=
  fun recursive => absurd recursive simple

theorem Level.retag (level : instruction.Level) (depth : Nat) (occurrence : UInt64) :
    (instruction.retag depth occurrence).Level := by
  intro recursive inner below alone
  rw [recursive_retag] at recursive
  rw [parts_retag] at alone
  obtain ⟨part, held, same⟩ := List.map_eq_singleton_iff.mp alone
  match part with
  | [] => cases same
  | original :: rest =>
    rw [Stack.retag_cons] at same
    obtain ⟨rfl, _⟩ := List.cons.inj same
    rw [trace_retag, trace_retag, Trace.labels_retag, Trace.labels_retag]
    exact level recursive original rest held

theorem Leads.spawned_cases {child : Child} (leads : instruction.Leads limit value effect)
    (level : instruction.Level) (spawned : child ∈ effect.children) (member : written ∈ child.stack) :
    instruction.Lends written ∨
      (¬ written.Recursive ∧ written.parts = [] ∧ written.trace.labels = instruction.trace.labels) := by
  cases leads with
  | @split templates merge trace path parts children listed shallow built =>
    cases path with
    | none =>
      obtain ⟨index, part, rfl⟩ := Split.mem_spawn_none built spawned
      simp only [Split.child, List.cons_append, List.mem_cons, List.mem_append, List.not_mem_nil, or_false] at member
      rcases member with rfl | inside | rfl
      · exact .inr ⟨not_false, rfl, rfl⟩
      · obtain ⟨inner, among, rfl⟩ := Stack.mem_retag.mp inside
        have found : ∀ inner ∈ Split.templateAt templates index, ∃ part ∈ templates, inner ∈ part := by
          refine @Split.templateAt_of (fun stack => ∀ inner ∈ stack, ∃ part ∈ templates, inner ∈ part) templates
            (fun part held inner among => ⟨part, held, among⟩) ?_ index
          exact fun inner impossible => absurd impossible List.not_mem_nil
        obtain ⟨template, held, within⟩ := found inner among
        exact .inl ⟨template, held, inner, within, .renumbered _ _ .same⟩
      · exact .inr ⟨not_false, rfl, rfl⟩
    | some path =>
      obtain ⟨condition, split, merge, solve, inner, old, below, index, part, rfl, _, rfl⟩ :=
        Split.mem_spawn_some built spawned
      simp only [Split.recursionFrom, List.mem_cons] at member
      rcases member with rfl | inside
      · refine .inr ⟨not_false, rfl, ?_⟩
        exact (Trace.labels_retag _ _ _).trans (level trivial _ _ rfl)
      · obtain ⟨original, among, rfl⟩ := Stack.mem_retag.mp inside
        rcases List.mem_cons.mp among with rfl | further
        · exact .inl ⟨_, List.mem_singleton_self _, _, List.mem_cons_self .., .renumbered _ _ (.descended _ .same)⟩
        · exact .inl ⟨_, List.mem_singleton_self _, original, List.mem_cons_of_mem _ further, .renumbered _ _ .same⟩
  | _ => cases spawned

theorem CopiedAs.level {original copy : Instruction} (copied : original.CopiedAs copy) (level : original.Level) :
    copy.Level := by
  induction copied with
  | same => exact level
  | renumbered depth occurrence _ ih => exact ih.retag depth occurrence
  | descended => exact .plain not_false

namespace MadeFor

variable {root node : Skeleton}

theorem mem_nodes (made : instruction.MadeFor root node) : node ∈ root.nodes := by
  induction made with
  | compiled stands _ => exact stands.mem_nodes
  | copied _ _ ih | pushed _ _ _ _ ih | spawned _ _ _ _ _ ih => exact ih

theorem level_own {trace : Trace} (member : instruction ∈ node.own trace) : instruction.Level := by
  refine .plain ?_
  cases node with
  | _ =>
    simp only [Skeleton.own, Skeleton.compile, List.mem_cons, List.not_mem_nil, or_false] at member
    rcases member with rfl | rfl | rfl | rfl <;> exact not_false

theorem place (made : instruction.MadeFor root node) :
    instruction.trace.labels.getLast? = some node.label ∧ instruction.Level := by
  induction made with
  | compiled stands member =>
    rw [Skeleton.trace_own member]
    exact ⟨stands.last_label, level_own member⟩
  | copied _ copied ih =>
    rw [copied.labels]
    exact ⟨ih.1, copied.level ih.2⟩
  -- What is written and not handed on keeps the trace; a recursive split holds the division that wrote it.
  | pushed _ leads member kept ih =>
    have writes := (leads.pushed_cases member).resolve_left kept
    rw [writes.trace]
    refine ⟨ih.1, fun recursive inner below alone => ?_⟩
    rw [writes.recurs recursive] at alone
    cases alone
    rw [writes.trace]
  | spawned _ leads child member kept ih =>
    obtain ⟨simple, _, same⟩ := (leads.spawned_cases ih.2 child member).resolve_left kept
    rw [same]
    exact ⟨ih.1, .plain simple⟩

end MadeFor

end

end Instruction

end Skeletons
