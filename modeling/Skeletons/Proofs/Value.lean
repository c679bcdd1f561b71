import Mathlib.Data.List.Induction
import Mathlib.Data.String.Basic
import Skeletons.Value

namespace Skeletons

namespace Value

mutual

/-- The value with something in place of every number in it. -/
def replaceNumbers (change : Number → Value) : Value → Value
  | .number x => change x
  | .list items => .list (replaceInItems change items)
  | .object members => .object (replaceInMembers change members)
  | value => value

def replaceInItems (change : Number → Value) : List Value → List Value
  | [] => []
  | item :: rest => replaceNumbers change item :: replaceInItems change rest

def replaceInMembers (change : Number → Value) : List (String × Value) → List (String × Value)
  | [] => []
  | (name, value) :: rest => (name, replaceNumbers change value) :: replaceInMembers change rest

end

mutual

def numbers : Value → List Number
  | .number x => [x]
  | .list items => numbersOfItems items
  | .object members => numbersOfMembers members
  | _ => []

def numbersOfItems : List Value → List Number
  | [] => []
  | item :: rest => numbers item ++ numbersOfItems rest

def numbersOfMembers : List (String × Value) → List Number
  | [] => []
  | (_, value) :: rest => numbers value ++ numbersOfMembers rest

end

section

variable (change : Number → Value)

mutual

theorem replaceNumbers_eq_self_iff : ∀ value : Value,
    value.replaceNumbers change = value ↔ ∀ x ∈ value.numbers, change x = .number x
  | .null | .bool _ | .text _ => by simp [replaceNumbers, numbers]
  | .number x => by simp [replaceNumbers, numbers]
  | .list items => by simp [replaceNumbers, numbers, replaceInItems_eq_self_iff items]
  | .object members => by simp [replaceNumbers, numbers, replaceInMembers_eq_self_iff members]

theorem replaceInItems_eq_self_iff : ∀ items : List Value,
    replaceInItems change items = items ↔ ∀ x ∈ numbersOfItems items, change x = .number x
  | [] => by simp [replaceInItems, numbersOfItems]
  | item :: rest => by
    simp [replaceInItems, numbersOfItems, replaceNumbers_eq_self_iff item, replaceInItems_eq_self_iff rest,
      or_imp, forall_and]

theorem replaceInMembers_eq_self_iff : ∀ members : List (String × Value),
    replaceInMembers change members = members ↔ ∀ x ∈ numbersOfMembers members, change x = .number x
  | [] => by simp [replaceInMembers, numbersOfMembers]
  | (name, value) :: rest => by
    simp [replaceInMembers, numbersOfMembers, replaceNumbers_eq_self_iff value, replaceInMembers_eq_self_iff rest,
      or_imp, forall_and]

end

end

def ofFinite (x : Number) : Value := if x.isFinite then .number x else .null

theorem ofFinite_eq_number_iff {x : Number} : ofFinite x = .number x ↔ x.isFinite = true := by
  cases finite : x.isFinite with
  | true => simp [ofFinite, finite]
  | false => simp [ofFinite, finite]

end Value

section

variable {α : Type}

theorem insertMember_last {members : List (String × α)} {name : String} (value : α)
    (below : ∀ member ∈ members, member.1 < name) :
    insertMember name value members = members ++ [(name, value)] := by
  induction members with
  | nil => rfl
  | cons first rest ih =>
    obtain ⟨less, further⟩ := List.forall_mem_cons.mp below
    rw [insertMember, if_neg less.not_gt, if_neg less.ne', ih further, List.cons_append]

theorem orderMembers_concat (members : List (String × α)) (last : String × α) :
    orderMembers (members ++ [last]) = insertMember last.1 last.2 (orderMembers members) :=
  congrArg Members.entries List.foldl_append

theorem orderMembers_of_ascending {members : List (String × α)} (ascending : Ascending members) :
    orderMembers members = members := by
  induction members using List.reverseRecOn with
  | nil => rfl
  | append_singleton rest last ih =>
    obtain ⟨before, _, below⟩ := List.pairwise_append.mp ascending
    rw [orderMembers_concat, ih before, insertMember_last]
    intro member among
    exact below member among last List.mem_cons_self

end

end Skeletons
