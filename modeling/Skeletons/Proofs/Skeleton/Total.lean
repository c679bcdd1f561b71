import Skeletons.Proofs.Process.Outcome
import Skeletons.Proofs.Skeleton.Nodes

namespace Skeletons

namespace Outcomes

variable {α β σ : Type}

def Total (outcomes : Outcomes α) : Prop := ∃ outcome, outcomes outcome

theorem total_ofResult (result : Except Failure α) : (liftM result : Outcomes α).Total := ⟨result, rfl⟩

theorem total_pure (value : α) : (pure value : Outcomes α).Total := ⟨.ok value, rfl⟩

theorem total_fail (failure : Failure) : (fail failure : Outcomes α).Total := ⟨.error failure, rfl⟩

theorem total_bind {first : Outcomes α} {next : α → Outcomes β} (total : first.Total)
    (rest : ∀ value, (next value).Total) : (first >>= next).Total := by
  obtain ⟨outcome, reached⟩ := total
  cases outcome with
  | error failure => exact ⟨.error failure, Or.inl ⟨failure, reached, rfl⟩⟩
  | ok value =>
    obtain ⟨last, further⟩ := rest value
    exact ⟨last, Or.inr ⟨value, reached, further⟩⟩

theorem total_mapM {work : σ → Outcomes α} (total : ∀ item, (work item).Total) (items : List σ) :
    (items.mapM work).Total := by
  induction items with
  | nil => exact total_pure []
  | cons item rest ih =>
    rw [List.mapM_cons]
    exact total_bind (total item) fun value => total_bind ih fun values => total_pure (value :: values)

theorem total_foldlM {work : α → σ → Outcomes α} (total : ∀ value item, (work value item).Total)
    (items : List σ) (start : α) : (items.foldlM work start).Total := by
  induction items generalizing start with
  | nil => exact total_pure start
  | cons item rest ih =>
    rw [List.foldlM_cons]
    exact total_bind (total start item) ih

theorem total_branchAt {branches : List (Value → Outcomes Value)}
    (total : ∀ branch ∈ branches, ∀ value, (branch value).Total) (index : Nat) (value : Value) :
    (branchAt branches index value).Total := by
  match branches with
  | [] => exact total_pure value
  | [only] => exact total only (List.mem_singleton_self only) value
  | first :: second :: others =>
    have same : branchAt (first :: second :: others) index =
      (first :: second :: others).getD index fun value => pure value := rfl
    rw [same, List.getD_eq_getElem?_getD]
    cases found : (first :: second :: others)[index]? with
    | none => exact total_pure value
    | some branch => exact total branch (List.mem_of_getElem? found) value

theorem total_scatter (limit level : Nat) {branches : List (Value → Outcomes Value)} (merge : Merge)
    (total : ∀ branch ∈ branches, ∀ value, (branch value).Total) (parts : List Value) :
    (scatter limit level branches merge parts).Total := by
  rw [scatter]
  split
  · exact total_fail _
  · split
    · exact total_fail _
    · refine total_bind (total_mapM (fun item => ?_) _) fun results => total_ofResult _
      exact total_branchAt total item.2 item.1

theorem total_divide (limit level : Nat) (condition : Condition) (split : Split) (merge : Merge)
    {solve : Value → Outcomes Value} (total : ∀ value, (solve value).Total) (depth : Nat) (input : Value) :
    (divide limit level condition split merge solve depth input).Total := by
  -- The induction is on how far the recursion is from the limit.
  induction left : limit + 1 - (level + depth) using Nat.strongRecOn generalizing depth input with
  | ind left ih =>
    rw [divide]
    refine total_bind (total_ofResult _) fun outcome => ?_
    cases outcome with
    | false => exact total input
    | true =>
      refine total_bind (total_ofResult _) fun parts => ?_
      split
      · exact total_fail _
      · rename_i shallow
        refine total_bind (total_mapM (fun part => ?_) parts) fun results => total_ofResult _
        exact ih _ (by omega) (depth + 1) part rfl

end Outcomes

namespace Skeleton

open Outcomes

/-- Without loops that test a condition. -/
def Bounded (skeleton : Skeleton) : Prop := ∀ node ∈ skeleton.nodes, node.kind ≠ .whileLoop

instance (skeleton : Skeleton) : Decidable skeleton.Bounded :=
  inferInstanceAs (Decidable (∀ node ∈ skeleton.nodes, node.kind ≠ .whileLoop))

theorem Bounded.part {skeleton part : Skeleton} (bounded : skeleton.Bounded)
    (member : part ∈ skeleton.children) : part.Bounded :=
  fun node held => bounded node (mem_nodes_of_part member held)

variable (limit : Nat)

mutual

theorem total_evaluates : ∀ (skeleton : Skeleton) (level : Nat) (input : Value), skeleton.Bounded →
    (skeleton.Evaluates limit level input).Total
  | .seq _ execute, level, input, bounded => total_ofResult (execute.call input)
  | .pipe _ first second, level, input, bounded =>
    total_bind (total_evaluates first _ input (bounded.part (by simp [children]))) fun middle =>
      total_evaluates second _ middle (bounded.part (by simp [children]))
  | .ifElse _ condition whenTrue whenFalse, level, input, bounded => by
    refine total_bind (total_ofResult (condition.call input)) fun outcome => ?_
    cases outcome with
    | false => exact total_evaluates whenFalse _ input (bounded.part (by simp [children]))
    | true => exact total_evaluates whenTrue _ input (bounded.part (by simp [children]))
  | .whileLoop _ _ _, level, input, bounded => absurd rfl (bounded _ (mem_nodes_self _))
  | .forLoop _ times body, level, input, bounded =>
    total_foldlM (fun value _ => total_evaluates body _ value (bounded.part (by simp [children]))) _ input
  | .map _ split body merge, level, input, bounded => by
    refine total_bind (total_ofResult (split.call input)) fun parts => ?_
    refine total_scatter limit level merge (fun branch member value => ?_) parts
    rw [List.mem_singleton.mp member]
    exact total_evaluates body _ value (bounded.part (by simp [children]))
  | .fork _ split branches merge, level, input, bounded =>
    total_bind (total_ofResult (split.call input)) fun parts =>
      total_scatter limit level merge
        (total_evaluations branches level fun branch member => bounded.part member) parts
  | .divide _ condition split solve merge, level, input, bounded =>
    total_divide limit level condition split merge
      (fun value => total_evaluates solve _ value (bounded.part (by simp [children]))) 0 input

theorem total_evaluations : ∀ (branches : List Skeleton) (level : Nat),
    (∀ branch ∈ branches, branch.Bounded) →
      ∀ run ∈ evaluations limit level branches, ∀ value, (run value).Total
  | [], _, _, _, member => nomatch member
  | branch :: rest, level, bounded, run, member => by
    intro value
    rcases List.mem_cons.mp member with rfl | among
    · exact total_evaluates branch _ value (bounded branch (List.mem_cons_self ..))
    · exact total_evaluations rest level (fun other held => bounded other (List.mem_cons_of_mem _ held))
        run among value

end

end Skeleton

end Skeletons
