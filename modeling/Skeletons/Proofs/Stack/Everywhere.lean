import Skeletons.Proofs.Skeleton.Compile
import Skeletons.Proofs.Stack.Retag

namespace Skeletons

def Instruction.parts : Instruction → List Stack
  | .seq _ _ | .merge _ _ | .signal _ => []
  | .ifElse _ whenTrue whenFalse _ | .choice _ whenTrue whenFalse _ => [whenTrue, whenFalse]
  | .split templates _ _ _ => templates
  | .divide _ _ _ solve _ _ => [solve]
  | .whileLoop _ body _ _ | .forLoop _ body _ _ => [body]

theorem Instruction.parts_retag (depth : Nat) (occurrence : UInt64) (instruction : Instruction) :
    (instruction.retag depth occurrence).parts =
      instruction.parts.map (Stack.retag depth occurrence) := by
  cases instruction with
  | split templates merge trace path => exact Stack.retagAll_eq_map depth occurrence templates
  | _ => rfl

theorem Stack.mem_retag {depth : Nat} {occurrence : UInt64} {stack : Stack} {instruction : Instruction} :
    instruction ∈ Stack.retag depth occurrence stack ↔
      ∃ original ∈ stack, original.retag depth occurrence = instruction := by
  induction stack with
  | nil => simp [Stack.retag]
  | cons first rest ih => simp [Stack.retag, ih, eq_comm]

section

variable {σ : Type} (holds : σ → Instruction → Prop) (inner : σ → Instruction → σ)

inductive Instruction.Everywhere : σ → Instruction → Prop where
  | intro {scope : σ} {instruction : Instruction} :
    holds scope instruction →
      (∀ part ∈ instruction.parts, ∀ inside ∈ part, Everywhere (inner scope instruction) inside) →
        Everywhere scope instruction

def Stack.Everywhere (scope : σ) (stack : Stack) : Prop :=
  ∀ instruction ∈ stack, instruction.Everywhere holds inner scope

end

theorem Instruction.everywhere_iff {σ : Type} {holds : σ → Instruction → Prop}
    {inner : σ → Instruction → σ} {scope : σ} {instruction : Instruction} :
    instruction.Everywhere holds inner scope ↔
      holds scope instruction ∧
        ∀ part ∈ instruction.parts, Stack.Everywhere holds inner (inner scope instruction) part := by
  constructor
  · intro everywhere
    cases everywhere with
    | intro here inside => exact ⟨here, inside⟩
  · exact fun given => .intro given.1 given.2

namespace Instruction.Everywhere

variable {σ : Type} {holds : σ → Instruction → Prop} {inner : σ → Instruction → σ} {scope : σ}
  {instruction : Instruction}

/-- A property that holds in a scope holds in every wider one, if widening is handed on inwards. -/
theorem widen (wider : σ → σ → Prop) (keeps : ∀ {scope other instruction}, wider scope other →
      holds scope instruction →
        holds other instruction ∧ wider (inner scope instruction) (inner other instruction))
    (everywhere : instruction.Everywhere holds inner scope) {other : σ} (widened : wider scope other) :
    instruction.Everywhere holds inner other := by
  induction everywhere generalizing other with
  | intro here _ ih =>
    have kept := keeps widened here
    exact .intro kept.1 fun part member inside among => ih part member inside among kept.2

theorem retag {depth : Nat} {occurrence : UInt64} (keeps : ∀ {scope instruction},
      holds scope instruction → holds scope (instruction.retag depth occurrence) ∧
        inner scope (instruction.retag depth occurrence) = inner scope instruction)
    (everywhere : instruction.Everywhere holds inner scope) :
    (instruction.retag depth occurrence).Everywhere holds inner scope := by
  induction everywhere with
  | intro here _ ih =>
    have kept := keeps here
    refine .intro kept.1 fun part member inside among => ?_
    rw [kept.2]
    rw [parts_retag] at member
    obtain ⟨original, held, rfl⟩ := List.mem_map.mp member
    obtain ⟨source, within, rfl⟩ := Stack.mem_retag.mp among
    exact ih original held source within

end Instruction.Everywhere

namespace Stack.Everywhere

variable {σ : Type} {holds : σ → Instruction → Prop} {inner : σ → Instruction → σ} {scope : σ}

@[simp] theorem nil : Stack.Everywhere holds inner scope [] := fun _ member => nomatch member

@[simp] theorem cons_iff {instruction : Instruction} {rest : Stack} :
    Stack.Everywhere holds inner scope (instruction :: rest) ↔
      instruction.Everywhere holds inner scope ∧ Stack.Everywhere holds inner scope rest :=
  List.forall_mem_cons

@[simp] theorem append_iff {first second : Stack} :
    Stack.Everywhere holds inner scope (first ++ second) ↔
      Stack.Everywhere holds inner scope first ∧ Stack.Everywhere holds inner scope second :=
  List.forall_mem_append

theorem widen (wider : σ → σ → Prop) (keeps : ∀ {scope other instruction}, wider scope other →
      holds scope instruction →
        holds other instruction ∧ wider (inner scope instruction) (inner other instruction))
    {stack : Stack} (everywhere : Stack.Everywhere holds inner scope stack) {other : σ}
    (widened : wider scope other) : Stack.Everywhere holds inner other stack :=
  fun instruction member => (everywhere instruction member).widen wider @keeps widened

theorem retag {depth : Nat} {occurrence : UInt64} (keeps : ∀ {scope instruction},
      holds scope instruction → holds scope (instruction.retag depth occurrence) ∧
        inner scope (instruction.retag depth occurrence) = inner scope instruction)
    {stack : Stack} (everywhere : Stack.Everywhere holds inner scope stack) :
    Stack.Everywhere holds inner scope (Stack.retag depth occurrence stack) := by
  intro instruction member
  obtain ⟨original, among, rfl⟩ := Stack.mem_retag.mp member
  exact (everywhere original among).retag keeps

end Stack.Everywhere

end Skeletons
