import Skeletons.Proofs.Stack.Everywhere
import Skeletons.Proofs.Task.Lineage

namespace Skeletons

namespace Skeleton

def splits : Skeleton → Bool
  | .seq .. => false
  | .pipe _ first second => first.splits || second.splits
  | .ifElse _ _ whenTrue whenFalse => whenTrue.splits || whenFalse.splits
  | .whileLoop _ _ body | .forLoop _ _ body => body.splits
  | .map .. | .fork .. | .divide .. => true

mutual

/-- The greatest number of divisions that a split or a division of the tree stands inside. -/
def divisions : Skeleton → Nat
  | .seq .. => 0
  | .pipe _ first second => max first.divisions second.divisions
  | .ifElse _ _ whenTrue whenFalse => max whenTrue.divisions whenFalse.divisions
  | .whileLoop _ _ body | .forLoop _ _ body | .map _ _ body _ => body.divisions
  | .fork _ _ branches _ => divisionsOf branches
  | .divide _ _ _ solve _ => if solve.splits then solve.divisions + 1 else 0

def divisionsOf : List Skeleton → Nat
  | [] => 0
  | branch :: rest => max branch.divisions (divisionsOf rest)

end

end Skeleton

/-- Where an instruction stands: in a task with at most so many tasks above, inside so many divisions. -/
structure Place where
  above : Nat
  around : Nat

namespace Instruction

/-- An instruction whose nodes and path, with the limit for each division around, outnumber the tasks above. -/
def Shallow (limit most : Nat) (place : Place) : Instruction → Prop
  | .split _ _ trace none => place.above < trace.length + limit * place.around ∧ place.around ≤ most
  | .split templates merger trace (some path) =>
    (place.above < trace.length + path.length + limit * place.around ∧ place.around ≤ most) ∧
      ∃ condition divider solve, templates = [[.divide condition divider merger solve trace path]]
  | .divide _ _ _ _ trace path =>
    (place.above < trace.length + path.length + limit * place.around ∧ place.around ≤ most) ∧
      path.length ≤ limit
  | _ => True

def inward (limit : Nat) (place : Place) : Instruction → Place
  | .split _ _ _ none => ⟨place.above + 1, place.around⟩
  | .divide _ _ _ _ trace _ => ⟨trace.length - 1 + limit * (place.around + 1), place.around + 1⟩
  | _ => place

variable {limit most : Nat}

theorem Shallow.reaches {templates : List Stack} {merger : Merge} {trace : Trace} {path : Option RecursionPath}
    {place : Place} (shallow : (split templates merger trace path).Shallow limit most place) :
    place.above < trace.length + (path.getD []).length + limit * place.around ∧ place.around ≤ most := by
  cases path with
  | none => exact shallow
  | some path => exact shallow.1

theorem Shallow.fewer {place other : Place} {instruction : Instruction}
    (fewer : other.above ≤ place.above ∧ other.around = place.around)
    (shallow : instruction.Shallow limit most place) :
    instruction.Shallow limit most other ∧
      (instruction.inward limit other).above ≤ (instruction.inward limit place).above ∧
        (instruction.inward limit other).around = (instruction.inward limit place).around := by
  obtain ⟨above, around⟩ := place
  obtain ⟨less, same⟩ := other
  obtain ⟨lower, rfl⟩ := fewer
  cases instruction with
  | split templates merger trace path =>
    cases path with
    | none => exact ⟨⟨Nat.lt_of_le_of_lt lower shallow.1, shallow.2⟩, Nat.succ_le_succ lower, rfl⟩
    | some path => exact ⟨⟨⟨Nat.lt_of_le_of_lt lower shallow.1.1, shallow.1.2⟩, shallow.2⟩, lower, rfl⟩
  | divide condition divider merger solve trace path =>
    exact ⟨⟨⟨Nat.lt_of_le_of_lt lower shallow.1.1, shallow.1.2⟩, shallow.2⟩, le_rfl, rfl⟩
  | _ => exact ⟨trivial, lower, rfl⟩

theorem Shallow.retag {place : Place} {instruction : Instruction} (depth : Nat) (occurrence : UInt64)
    (shallow : instruction.Shallow limit most place) :
    (instruction.retag depth occurrence).Shallow limit most place ∧
      (instruction.retag depth occurrence).inward limit place = instruction.inward limit place := by
  cases instruction with
  | split templates merger trace path =>
    cases path with
    | none => exact ⟨by simpa [Instruction.retag, Shallow] using shallow, rfl⟩
    | some path =>
      obtain ⟨bounds, condition, divider, solve, rfl⟩ := shallow
      refine ⟨⟨by simpa using bounds, condition, divider, Stack.retag depth occurrence solve, ?_⟩, rfl⟩
      rfl
  | divide condition divider merger solve trace path =>
    exact ⟨by simpa [Instruction.retag, Shallow] using shallow, by simp [Instruction.retag, inward]⟩
  | _ => exact ⟨trivial, rfl⟩

end Instruction

namespace Stack

def PlacedAt (limit most : Nat) (place : Place) (stack : Stack) : Prop :=
  Stack.Everywhere (Instruction.Shallow limit most) (Instruction.inward limit) place stack

/-- A stack of a task with so many tasks above, each of whose instructions stands inside divisions of its
    own. -/
def Placed (limit most above : Nat) (stack : Stack) : Prop :=
  above ≤ limit * (most + 1) ∧
    ∀ instruction ∈ stack, ∃ around,
      instruction.Everywhere (Instruction.Shallow limit most) (Instruction.inward limit) ⟨above, around⟩

variable {limit most above : Nat} {place : Place}

@[simp] theorem placedAt_nil : PlacedAt limit most place [] := Everywhere.nil

@[simp] theorem placedAt_cons (instruction : Instruction) (rest : Stack) :
    PlacedAt limit most place (instruction :: rest) ↔
      (instruction.Shallow limit most place ∧
        ∀ part ∈ instruction.parts, PlacedAt limit most (instruction.inward limit place) part) ∧
        PlacedAt limit most place rest := by
  rw [PlacedAt, Everywhere.cons_iff, Instruction.everywhere_iff]
  rfl

@[simp] theorem placedAt_append (first second : Stack) :
    PlacedAt limit most place (first ++ second) ↔
      PlacedAt limit most place first ∧ PlacedAt limit most place second := Everywhere.append_iff

theorem PlacedAt.fewer {less around : Nat} {stack : Stack}
    (placed : PlacedAt limit most ⟨above, around⟩ stack) (lower : less ≤ above) :
    PlacedAt limit most ⟨less, around⟩ stack := by
  refine Everywhere.widen (fun place other => other.above ≤ place.above ∧ other.around = place.around) ?_
    placed ⟨lower, rfl⟩
  exact fun fewer shallow => shallow.fewer fewer

theorem PlacedAt.retag {stack : Stack} (placed : PlacedAt limit most place stack) (depth : Nat)
    (occurrence : UInt64) : PlacedAt limit most place (Stack.retag depth occurrence stack) :=
  Everywhere.retag (fun shallow => shallow.retag depth occurrence) placed

theorem PlacedAt.placed {around : Nat} {stack : Stack} (placed : PlacedAt limit most ⟨above, around⟩ stack)
    (bounded : above ≤ limit * (most + 1)) : Placed limit most above stack :=
  ⟨bounded, fun instruction member => ⟨around, placed instruction member⟩⟩

theorem Placed.cons_cases {instruction : Instruction} {rest : Stack}
    (placed : Placed limit most above (instruction :: rest)) :
    ∃ around,
      (instruction.Shallow limit most ⟨above, around⟩ ∧
        ∀ part ∈ instruction.parts, PlacedAt limit most (instruction.inward limit ⟨above, around⟩) part) ∧
        Placed limit most above rest := by
  obtain ⟨bounded, each⟩ := placed
  obtain ⟨around, everywhere⟩ := each instruction (List.mem_cons_self ..)
  exact ⟨around, Instruction.everywhere_iff.mp everywhere, bounded,
    fun other member => each other (List.mem_cons_of_mem _ member)⟩

theorem Placed.append {first second : Stack} (upper : Placed limit most above first)
    (lower : Placed limit most above second) : Placed limit most above (first ++ second) :=
  ⟨upper.1, List.forall_mem_append.mpr ⟨upper.2, lower.2⟩⟩

end Stack

namespace Skeleton

open Stack

variable {limit most : Nat}

mutual

theorem placed_compile : ∀ (skeleton : Skeleton) (trace : Trace) (place : Place),
    place.above < trace.length + limit * place.around →
      (skeleton.splits = true → place.around + skeleton.divisions ≤ most) →
        PlacedAt limit most place (skeleton.compile trace)
  | .seq _ _, _, _, _, _ => by simp [compile, Instruction.parts, Instruction.Shallow]
  | .pipe _ first second, trace, place, above, bounded => by
    simp only [splits, divisions, Bool.or_eq_true] at bounded
    have upper := placed_compile first (trace.nest first.frame) place (by rw [Trace.length_nest]; omega)
      fun split => by have := bounded (.inl split); omega
    have lower := placed_compile second (trace.nest second.frame) place (by rw [Trace.length_nest]; omega)
      fun split => by have := bounded (.inr split); omega
    simp [compile, report, Instruction.parts, Instruction.Shallow, upper, lower]
  | .ifElse _ _ whenTrue whenFalse, trace, place, above, bounded => by
    simp only [splits, divisions, Bool.or_eq_true] at bounded
    have positive := placed_compile whenTrue (trace.nest whenTrue.frame) place (by rw [Trace.length_nest]; omega)
      fun split => by have := bounded (.inl split); omega
    have negative := placed_compile whenFalse (trace.nest whenFalse.frame) place (by rw [Trace.length_nest]; omega)
      fun split => by have := bounded (.inr split); omega
    simp [compile, report, Instruction.parts, Instruction.Shallow, Instruction.inward, positive, negative]
  | .whileLoop _ _ body, trace, place, above, bounded
  | .forLoop _ _ body, trace, place, above, bounded => by
    have repeated := placed_compile body (trace.nest body.frame) place (by rw [Trace.length_nest]; omega) bounded
    simp [compile, report, Instruction.parts, Instruction.Shallow, Instruction.inward, repeated]
  | .map _ _ body _, trace, place, above, bounded => by
    have inside : place.around + body.divisions ≤ most := bounded rfl
    have each := placed_compile body (trace.nest body.frame) ⟨place.above + 1, place.around⟩
      (by simp only [Trace.length_nest]; omega) fun _ => inside
    have here : place.around ≤ most := by omega
    simp [compile, Instruction.parts, Instruction.Shallow, Instruction.inward, each, above, here]
  | .fork _ _ branches _, trace, place, above, bounded => by
    have inside : place.around + divisionsOf branches ≤ most := bounded rfl
    have each := placed_compileAll branches trace ⟨place.above + 1, place.around⟩ (by dsimp only; omega) inside
    have here : place.around ≤ most := by omega
    simpa [compile, Instruction.parts, Instruction.Shallow, Instruction.inward, above, here] using each
  | .divide _ _ _ solve _, trace, place, above, bounded => by
    have inside : place.around + (if solve.splits then solve.divisions + 1 else 0) ≤ most := bounded rfl
    have leaf := placed_compile solve (trace.nest solve.frame)
      ⟨trace.length - 1 + limit * (place.around + 1), place.around + 1⟩
      (by simp only [Trace.length_nest]; omega)
      fun split => by rw [if_pos split] at inside; dsimp only; omega
    have here : place.around ≤ most := by omega
    simp [compile, report, Instruction.parts, Instruction.Shallow, Instruction.inward, leaf, above, here]

theorem placed_compileAll : ∀ (branches : List Skeleton) (trace : Trace) (place : Place),
    place.above < trace.length + 1 + limit * place.around →
      place.around + divisionsOf branches ≤ most →
        ∀ template ∈ compileAll trace branches, PlacedAt limit most place template
  | [], _, _, _, _, _, member => nomatch member
  | branch :: rest, trace, place, above, bounded, template, member => by
    simp only [divisionsOf] at bounded
    rcases List.mem_cons.mp member with rfl | among
    · exact placed_compile branch _ place (by simpa using above) fun _ => by omega
    · exact placed_compileAll rest trace place above (by omega) template among

end

end Skeleton

namespace Stack

variable {limit most above : Nat} {rest : Stack} {instruction : Instruction} {value : Value} {effect : Effect}

theorem placed_onward (placed : Placed limit most above (instruction :: rest))
    (leads : instruction.Leads limit value effect) : Placed limit most above (effect.pushed ++ rest) := by
  obtain ⟨around, ⟨here, inside⟩, below⟩ := placed.cons_cases
  suffices pushed : ∃ around, PlacedAt limit most ⟨above, around⟩ effect.pushed by
    obtain ⟨around, pushed⟩ := pushed
    exact (pushed.placed placed.1).append below
  cases leads with
  | seq | merge | signal | finished => exact ⟨around, placedAt_nil⟩
  | ifElse | split | left | divided =>
    refine ⟨around, ?_⟩
    simp_all [report, merging, Instruction.parts, Instruction.Shallow, Instruction.inward]
  | @choice outcome whenTrue whenFalse trace =>
    simp only [Instruction.parts, List.forall_mem_cons] at inside
    cases outcome with
    | false => exact ⟨around, inside.2.1⟩
    | true => exact ⟨around, inside.1⟩
  | @solved condition divider merger solve trace path =>
    -- The leaf was placed for the deepest recursion that the limit lets a division come to.
    have leaf : PlacedAt limit most ⟨above, around + 1⟩ solve := by
      refine PlacedAt.fewer (inside solve (List.mem_singleton_self _)) ?_
      have reached := here.1.1
      have short := here.2
      simp only [Nat.mul_add, Nat.mul_one] at reached ⊢
      omega
    refine ⟨around + 1, ?_⟩
    simp [report, Instruction.parts, Instruction.Shallow, leaf]
  | @again condition body trace iteration =>
    have repeated : PlacedAt limit most ⟨above, around⟩ body := inside body (List.mem_singleton_self body)
    have tagged := repeated.retag trace.length iteration
    refine ⟨around, ?_⟩
    simp [report, Instruction.parts, Instruction.Shallow, Instruction.inward, repeated, tagged]
  | @counted times body trace iteration less =>
    have repeated : PlacedAt limit most ⟨above, around⟩ body := inside body (List.mem_singleton_self body)
    have tagged := repeated.retag trace.length iteration
    refine ⟨around, ?_⟩
    simp [report, Instruction.parts, Instruction.Shallow, Instruction.inward, repeated, tagged]

theorem placed_spawned (placed : Placed limit most above (instruction :: rest))
    (leads : instruction.Leads limit value effect) :
    ∀ child ∈ effect.children, Placed limit most (above + 1) child.stack := by
  intro child member
  obtain ⟨around, ⟨here, inside⟩, _⟩ := placed.cons_cases
  cases leads with
  | @split templates merge trace path parts children listed shallow built =>
    obtain ⟨reached, few⟩ := here.reaches
    dsimp only at reached few
    have divided := Nat.mul_le_mul_left limit few
    have room : above + 1 ≤ limit * (most + 1) := by
      rw [Nat.mul_add, Nat.mul_one]
      omega
    cases path with
    | none =>
      obtain ⟨index, part, rfl⟩ := Split.mem_spawn_none built member
      have template : PlacedAt limit most ⟨above + 1, around⟩ (Split.templateAt templates index) :=
        Split.templateAt_of inside placedAt_nil index
      have tagged := template.retag trace.length (UInt64.ofNat index)
      suffices child : PlacedAt limit most ⟨above + 1, around⟩ (Split.child _ _ _ _).stack from child.placed room
      simp [Split.child, report, Instruction.parts, Instruction.Shallow, tagged]
    | some path =>
      obtain ⟨_, condition, divider, solve, rfl⟩ := here
      obtain ⟨_, _, _, _, _, _, _, index, part, same, traced, rfl⟩ := Split.mem_spawn_some built member
      cases same
      have recurring := inside _ (List.mem_singleton_self _)
      rw [placedAt_cons] at recurring
      have leaf := recurring.1.2 solve (List.mem_singleton_self _)
      suffices child : PlacedAt limit most ⟨above + 1, around⟩
          (Split.recursionFrom condition divider merge solve trace [] path index part).stack from
        child.placed room
      have traced := List.length_pos_iff.mpr traced
      simp only [Option.getD_some] at shallow reached
      have further : Instruction.Shallow limit most ⟨above + 1, around⟩
          (.divide condition divider merge solve trace (path.child (UInt64.ofNat index))) := by
        simp only [Instruction.Shallow, RecursionPath.child, List.length_append, List.length_singleton]
        exact ⟨⟨by omega, few⟩, by omega⟩
      have next : PlacedAt limit most ⟨above + 1, around⟩
          [.divide condition divider merge solve trace (path.child (UInt64.ofNat index))] :=
        (placedAt_cons _ _).mpr ⟨⟨further, fun _ only => List.mem_singleton.mp only ▸ leaf⟩, placedAt_nil⟩
      have tagged := next.retag (trace.length - 1) (path.child (UInt64.ofNat index)).id
      simpa [Split.recursionFrom, report, Instruction.parts, Instruction.Shallow] using tagged
  | _ => cases member

theorem Placed.kept (limit most : Nat) : Stack.Kept limit (Placed limit most) where
  below placed := by
    obtain ⟨_, _, below⟩ := placed.cons_cases
    exact below
  onward := placed_onward
  spawned := placed_spawned

end Stack

end Skeletons
