import Skeletons.Proofs.Run.Behaviour

namespace Skeletons.Stack

theorem watch_cons (limit budget : Nat) (instruction : Instruction) (rest : Stack) (value : Value) :
    watch limit (budget + 1) (instruction :: rest) value =
      (instruction.perform limit value).within budget >>= fun next =>
        watch limit budget (next.1 ++ rest) next.2 :=
  congrArg (fun process : Process Value => process.within (budget + 1))
    (behaviour_cons limit instruction rest value)

theorem watch_append_le (limit : Nat) (first second : Stack) (value : Value) (budget : Nat) :
    watch limit budget (first ++ second) value ≤
      watch limit budget first value >>= watch limit budget second := by
  induction budget generalizing first value with
  | zero => exact Account.unfinished_le _
  | succ budget ih =>
    match first with
    | [] => exact le_rfl
    | instruction :: rest =>
      rw [List.cons_append, watch_cons, watch_cons, bind_assoc]
      refine Account.bind_le_bind le_rfl fun next => ?_
      have unrolled := ih (next.1 ++ rest) next.2
      rw [List.append_assoc] at unrolled
      refine unrolled.trans (Account.bind_le_bind le_rfl fun last => ?_)
      exact (behaviour limit second last).grows (Nat.le_succ budget)

theorem watch_bind_le (limit : Nat) (first second : Stack) (value : Value) (budget more : Nat) :
    watch limit budget first value >>= watch limit more second ≤
      watch limit (budget + more) (first ++ second) value := by
  induction budget generalizing first value with
  | zero => exact Account.unfinished_le _
  | succ budget ih =>
    match first with
    | [] => exact (behaviour limit second value).grows (Nat.le_add_left more (budget + 1))
    | instruction :: rest =>
      rw [Nat.add_right_comm, List.cons_append, watch_cons, watch_cons, bind_assoc]
      refine Account.bind_le_bind ?_ fun next => ?_
      · exact (instruction.perform limit value).grows (Nat.le_add_right budget more)
      · have joined := ih (next.1 ++ rest) next.2
        rw [List.append_assoc] at joined
        exact joined

theorem behaviour_append (limit : Nat) (first second : Stack) (value : Value) :
    (behaviour limit (first ++ second) value).Trails
      (behaviour limit first value >>= behaviour limit second) where
  lags := watch_append_le limit first second value
  above budget := ⟨budget + budget, watch_bind_le limit first second value budget budget⟩

end Skeletons.Stack
