import Skeletons.Json

namespace Skeletons.Json

theorem toMembers_eq_map (members : List (String × Json)) :
    toMembers members = members.map (Prod.map id toValue) := by
  induction members with
  | nil => rfl
  | cons first rest ih =>
    rw [toMembers, ih]
    rfl

theorem ascending_toMembers {members : List (String × Json)} (ascending : Ascending members) :
    Ascending (toMembers members) := by
  rw [toMembers_eq_map]
  exact List.pairwise_map.mpr ascending

mutual

theorem ordered_toValue_canonical : ∀ json : Json, json.canonical.toValue.Ordered
  | .null | .bool _ | .text _ | .number _ => trivial
  | .array items => ordered_toValues_canonicalItems items
  | .object members => by
    refine ⟨ascending_toMembers (Members.ascending _), Value.orderedMembers_iff.mpr ?_⟩
    intro member among
    rw [toMembers_eq_map] at among
    obtain ⟨source, kept, rfl⟩ := List.mem_map.mp among
    exact ordered_canonicalMembers members source (Members.mem_of_mem_ofList kept)

theorem ordered_toValues_canonicalItems : ∀ items : List Json,
    Value.OrderedItems (toValues (canonicalItems items))
  | [] => trivial
  | item :: rest => ⟨ordered_toValue_canonical item, ordered_toValues_canonicalItems rest⟩

theorem ordered_canonicalMembers : ∀ members : List (String × Json),
    ∀ member ∈ canonicalMembers members, member.2.toValue.Ordered
  | [], _, among => nomatch among
  | (name, json) :: rest, member, among => by
    rcases List.mem_cons.mp among with rfl | further
    · exact ordered_toValue_canonical json
    · exact ordered_canonicalMembers rest member further

end

def toOrdered (json : Json) : OrderedValue := ⟨json.canonical.toValue, json.ordered_toValue_canonical⟩

end Skeletons.Json
