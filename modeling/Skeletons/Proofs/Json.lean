import Skeletons.Json.Form
import Skeletons.Json.Ordered
import Skeletons.Proofs.Number.Nearest
import Skeletons.Proofs.Value

namespace Skeletons

namespace Json

mutual

/-- The document with something in place of every number in it. -/
def replaceNumerals (change : Numeral → Json) : Json → Json
  | .number n => change n
  | .array items => .array (replaceInItems change items)
  | .object members => .object (replaceInMembers change members)
  | json => json

def replaceInItems (change : Numeral → Json) : List Json → List Json
  | [] => []
  | item :: rest => replaceNumerals change item :: replaceInItems change rest

def replaceInMembers (change : Numeral → Json) : List (String × Json) → List (String × Json)
  | [] => []
  | (name, json) :: rest => (name, replaceNumerals change json) :: replaceInMembers change rest

end

mutual

def numerals : Json → List Numeral
  | .number n => [n]
  | .array items => numeralsOfItems items
  | .object members => numeralsOfMembers members
  | _ => []

def numeralsOfItems : List Json → List Numeral
  | [] => []
  | item :: rest => numerals item ++ numeralsOfItems rest

def numeralsOfMembers : List (String × Json) → List Numeral
  | [] => []
  | (_, json) :: rest => numerals json ++ numeralsOfMembers rest

end

section

variable {change other : Numeral → Json}

mutual

theorem replaceNumerals_congr : ∀ json : Json, (∀ n ∈ json.numerals, change n = other n) →
    json.replaceNumerals change = json.replaceNumerals other
  | .null, _ | .bool _, _ | .text _, _ => rfl
  | .number n, same => same n (List.mem_singleton_self n)
  | .array items, same => congrArg Json.array (replaceInItems_congr items same)
  | .object members, same => congrArg Json.object (replaceInMembers_congr members same)

theorem replaceInItems_congr : ∀ items : List Json, (∀ n ∈ numeralsOfItems items, change n = other n) →
    replaceInItems change items = replaceInItems other items
  | [], _ => rfl
  | item :: rest, same => by
    obtain ⟨first, others⟩ := List.forall_mem_append.mp same
    rw [replaceInItems, replaceNumerals_congr item first, replaceInItems_congr rest others, replaceInItems]

theorem replaceInMembers_congr : ∀ members : List (String × Json),
    (∀ n ∈ numeralsOfMembers members, change n = other n) →
      replaceInMembers change members = replaceInMembers other members
  | [], _ => rfl
  | (name, json) :: rest, same => by
    obtain ⟨first, others⟩ := List.forall_mem_append.mp same
    rw [replaceInMembers, replaceNumerals_congr json first, replaceInMembers_congr rest others, replaceInMembers]

end

end

mutual

theorem toValue_ofValue : ∀ value : Value, (ofValue value).toValue = value.replaceNumbers .ofFinite
  | .null | .bool _ | .text _ => rfl
  | .number x => by
    rw [ofValue, Value.replaceNumbers, Value.ofFinite]
    split
    · rfl
    · rfl
  | .list items => congrArg Value.list (toValues_ofValues items)
  | .object members => congrArg Value.object (toMembers_ofMembers members)

theorem toValues_ofValues : ∀ items : List Value,
    toValues (ofValues items) = Value.replaceInItems .ofFinite items
  | [] => rfl
  | item :: rest => by
    rw [ofValues, toValues, toValue_ofValue item, toValues_ofValues rest, Value.replaceInItems]

theorem toMembers_ofMembers : ∀ members : List (String × Value),
    toMembers (ofMembers members) = Value.replaceInMembers .ofFinite members
  | [] => rfl
  | (name, value) :: rest => by
    rw [ofMembers, toMembers, toValue_ofValue value, toMembers_ofMembers rest, Value.replaceInMembers]

end

mutual

theorem ofValue_toValue : ∀ json : Json,
    ofValue json.toValue = json.replaceNumerals fun n => ofValue (.number n.toNumber)
  | .null | .bool _ | .text _ | .number _ => rfl
  | .array items => congrArg Json.array (ofValues_toValues items)
  | .object members => congrArg Json.object (ofMembers_toMembers members)

theorem ofValues_toValues : ∀ items : List Json,
    ofValues (toValues items) = replaceInItems (fun n => ofValue (.number n.toNumber)) items
  | [] => rfl
  | item :: rest => by
    rw [toValues, ofValues, ofValue_toValue item, ofValues_toValues rest, replaceInItems]

theorem ofMembers_toMembers : ∀ members : List (String × Json),
    ofMembers (toMembers members) = replaceInMembers (fun n => ofValue (.number n.toNumber)) members
  | [] => rfl
  | (name, json) :: rest => by
    rw [toMembers, ofMembers, ofValue_toValue json, ofMembers_toMembers rest, replaceInMembers]

end

mutual

theorem ofValue_replaceNumbers : ∀ value : Value, ofValue (value.replaceNumbers .ofFinite) = ofValue value
  | .null | .bool _ | .text _ => rfl
  | .number x => by
    cases finite : x.isFinite with
    | true => simp [Value.replaceNumbers, Value.ofFinite, finite]
    | false => simp [Value.replaceNumbers, Value.ofFinite, finite, ofValue]
  | .list items => congrArg Json.array (ofValues_replaceInItems items)
  | .object members => congrArg Json.object (ofMembers_replaceInMembers members)

theorem ofValues_replaceInItems : ∀ items : List Value,
    ofValues (Value.replaceInItems .ofFinite items) = ofValues items
  | [] => rfl
  | item :: rest => by
    rw [Value.replaceInItems, ofValues, ofValue_replaceNumbers item, ofValues_replaceInItems rest, ofValues]

theorem ofMembers_replaceInMembers : ∀ members : List (String × Value),
    ofMembers (Value.replaceInMembers .ofFinite members) = ofMembers members
  | [] => rfl
  | (name, value) :: rest => by
    rw [Value.replaceInMembers, ofMembers, ofValue_replaceNumbers value, ofMembers_replaceInMembers rest, ofMembers]

end

theorem ofValue_toValue_ofValue (value : Value) : ofValue (ofValue value).toValue = ofValue value := by
  rw [toValue_ofValue, ofValue_replaceNumbers]

theorem ofMembers_eq_map (members : List (String × Value)) :
    ofMembers members = members.map (Prod.map id ofValue) := by
  induction members with
  | nil => rfl
  | cons first rest ih => rw [ofMembers, ih, List.map_cons, Prod.map_apply, id]

theorem ascending_ofMembers {members : List (String × Value)} (ascending : Ascending members) :
    Ascending (ofMembers members) := by
  rw [ofMembers_eq_map]
  exact List.pairwise_map.mpr ascending

mutual

theorem canonical_ofValue : ∀ value : Value, value.Ordered → (ofValue value).canonical = ofValue value
  | .null, _ | .bool _, _ | .text _, _ => rfl
  | .number x, _ => by
    rw [ofValue]
    split
    · rfl
    · rfl
  | .list items, ordered => congrArg Json.array (canonicalItems_ofValues items ordered)
  | .object members, ordered => by
    rw [ofValue, canonical, canonicalMembers_ofMembers members ordered.2,
      orderMembers_of_ascending (ascending_ofMembers ordered.1)]

theorem canonicalItems_ofValues : ∀ items : List Value, Value.OrderedItems items →
    canonicalItems (ofValues items) = ofValues items
  | [], _ => rfl
  | item :: rest, ordered => by
    rw [ofValues, canonicalItems, canonical_ofValue item ordered.1, canonicalItems_ofValues rest ordered.2]

theorem canonicalMembers_ofMembers : ∀ members : List (String × Value), Value.OrderedMembers members →
    canonicalMembers (ofMembers members) = ofMembers members
  | [], _ => rfl
  | (name, value) :: rest, ordered => by
    rw [ofMembers, canonicalMembers, canonical_ofValue value ordered.1, canonicalMembers_ofMembers rest ordered.2]

end

end Json

namespace Numeral

/-- Whole numbers of sixty-four bits and finite doubles, which are all that documents hold. -/
def Valid : Numeral → Prop
  | .integer n => isKept n = true
  | .real x => x.isFinite = true

def value : Numeral → ℚ
  | .integer n => n
  | .real x => x.value

/-- Whether a double is nearest to a number: it is finite, and no finite double is nearer. -/
def Nearest (n : Numeral) (x : Number) : Prop :=
  x.isFinite = true ∧ ∀ other : Number, other.isFinite = true → |n.value - x.value| ≤ |n.value - other.value|

theorem nearest_toNumber {n : Numeral} (valid : n.Valid) : n.Nearest n.toNumber := by
  cases n with
  | integer n =>
    have range := of_decide_eq_true valid
    have small : n.natAbs < 2 ^ 64 := by
      unfold Number.signWeight Number.maxCount at range
      omega
    obtain ⟨finite, nearest⟩ := Number.ofInt_nearest small
    exact ⟨finite, fun other _ => nearest other⟩
  | real x =>
    refine ⟨valid, ?_⟩
    intro other _
    rw [toNumber, value, sub_self, abs_zero]
    exact abs_nonneg _

end Numeral

namespace Json

/-- A value that goes through a document has null in place of every number that is not finite and is the same
    otherwise; a document that goes through a value has the nearest double in place of every number and is the same
    otherwise. Going through again changes nothing, and members in order stay in order. -/
theorem there_and_back (value : Value) {json : Json} (valid : ∀ n ∈ json.numerals, n.Valid) :
    ((ofValue value).toValue = value.replaceNumbers .ofFinite ∧
      ((ofValue value).toValue = value ↔ ∀ x ∈ value.numbers, x.isFinite = true) ∧
      (ofValue (ofValue value).toValue).toValue = (ofValue value).toValue ∧
      (value.Ordered → (ofValue value).canonical = ofValue value)) ∧
    (ofValue json.toValue = json.replaceNumerals fun n => .number (.real n.toNumber)) ∧
      (∀ n ∈ json.numerals, n.Nearest n.toNumber) ∧
      ofValue (ofValue json.toValue).toValue = ofValue json.toValue ∧
      (json.canonical = json → json.toValue.Ordered) := by
  have nearest : ∀ n ∈ json.numerals, n.Nearest n.toNumber := fun n among =>
    Numeral.nearest_toNumber (valid n among)
  refine ⟨⟨toValue_ofValue value, ?_, ?_, canonical_ofValue value⟩, ?_, nearest, ofValue_toValue_ofValue _, ?_⟩
  · rw [toValue_ofValue, Value.replaceNumbers_eq_self_iff]
    exact forall₂_congr fun x _ => Value.ofFinite_eq_number_iff
  · rw [ofValue_toValue_ofValue]
  · rw [ofValue_toValue]
    apply replaceNumerals_congr
    intro n among
    rw [ofValue, if_pos (nearest n among).1]
  · intro canonical
    exact canonical ▸ ordered_toValue_canonical json

theorem there_and_back_mixed :
    let value : Value := .object [("list", .list [.number .nan, .number (-.zero)]), ("text", .text "nan")]
    let json : Json := .object [("array", .array [.number (.integer (2 ^ 53 + 1)), .null])]
    (∀ n ∈ json.numerals, n.Valid) ∧
      (ofValue value).toValue =
        .object [("list", .list [.null, .number (-.zero)]), ("text", .text "nan")] ∧
      ofValue json.toValue = .object [("array", .array [.number (.real (.ofInt (2 ^ 53))), .null])] ∧
      ofValue (ofValue json.toValue).toValue = ofValue json.toValue := by
  intro value json
  have valid : ∀ n ∈ json.numerals, n.Valid := List.forall_mem_singleton.mpr rfl
  obtain ⟨⟨back, _⟩, there, _, again, _⟩ := there_and_back value valid
  exact ⟨valid, back.trans rfl, there.trans rfl, again⟩

end Json

end Skeletons
