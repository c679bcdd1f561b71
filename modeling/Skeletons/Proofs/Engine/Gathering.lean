import Mathlib.Algebra.Order.Group.Multiset
import Skeletons.Proofs.Engine.Work

namespace Skeletons

theorem sum_modify_add {parts : List (Multiset Event)} (told : Multiset Event) {place : Nat}
    (within : place < parts.length) : (parts.modify place (· + told)).sum = parts.sum + told := by
  induction parts generalizing place with
  | nil => cases within
  | cons part rest ih =>
    cases place with
    | zero => simp only [List.modify_zero_cons, List.sum_cons, add_right_comm]
    | succ place =>
      simp only [List.modify_succ_cons, List.sum_cons]
      rw [ih (Nat.lt_of_succ_lt_succ within), add_assoc]

theorem ends_gathered {limit : Nat} {children : List Child} {results : List Value}
    {parts : List (Multiset Event)} (counted : results.length = children.length)
    (parted : parts.length = children.length)
    (ended : ∀ (index : Nat) (child : Child) (value : Value) (part : Multiset Event),
      children[index]? = some child → results[index]? = some value → parts[index]? = some part →
        ∃ told : List Event, (Task.ofChild child).Ends limit (.ok value) told ∧ part = told) :
    ∃ told : List Event, (gathered limit children).Ends (.ok results) told ∧ parts.sum = told := by
  induction children generalizing results parts with
  | nil =>
    have no_results : results = [] := List.length_eq_zero_iff.mp counted
    have no_parts : parts = [] := List.length_eq_zero_iff.mp parted
    subst no_results no_parts
    exact ⟨[], (Process.ends_pure _ _ _).mpr ⟨rfl, rfl⟩, rfl⟩
  | cons child others ih =>
    obtain ⟨value, values, rfl⟩ := List.exists_cons_of_length_eq_add_one counted
    obtain ⟨part, shares, rfl⟩ := List.exists_cons_of_length_eq_add_one parted
    obtain ⟨early, first, rfl⟩ := ended 0 child value part rfl rfl rfl
    obtain ⟨late, rest, same⟩ := ih (Nat.succ.inj counted) (Nat.succ.inj parted)
      fun index => ended (index + 1)
    refine ⟨early ++ late, ?_, ?_⟩
    · rw [gathered, List.mapM_cons, Process.ends_bind]
      refine Or.inr ⟨value, early, late, (Task.ends_iff ..).mp first, ?_, rfl⟩
      rw [Process.ends_bind]
      refine Or.inr ⟨values, late, [], rest, ?_, (List.append_nil late).symm⟩
      exact (Process.ends_pure _ _ _).mpr ⟨rfl, rfl⟩
    · rw [List.sum_cons, same, Multiset.coe_add]

namespace Work

/-- What holds of the children of a waiting parent: `runs` says of each that is pending how it stands to
    its run alone, and `parts` are the events of each so far. -/
structure Gathering (limit : Nat) (runs : Task → Work → Multiset Event → Prop) (children : List Child)
    (pending : List Work) (slots : List (Option Value)) (parts : List (Multiset Event)) : Prop where
  slotted : slots.length = children.length
  parted : parts.length = children.length
  distinct : (pending.map place).Nodup
  vacant : ∀ index : Nat, index ∈ pending.map place ↔ slots[index]? = some none
  filled : ∀ (index : Nat) (child : Child) (value : Value) (part : Multiset Event),
    children[index]? = some child → slots[index]? = some (some value) → parts[index]? = some part →
      ∃ told : List Event, (Task.ofChild child).Ends limit (.ok value) told ∧ part = told
  running : ∀ (work : Work) (child : Child) (part : Multiset Event), work ∈ pending →
    children[work.place]? = some child → parts[work.place]? = some part → runs (Task.ofChild child) work part

namespace Gathering

variable {limit : Nat} {runs : Task → Work → Multiset Event → Prop} {children : List Child}
  {before after : List Work} {slots : List (Option Value)} {parts : List (Multiset Event)}

theorem index_eq {index : Nat} {child : Child}
    (placed : children.map Child.index = List.range children.length)
    (found : children[index]? = some child) : child.index = index := by
  obtain ⟨within, _⟩ := List.getElem?_eq_some_iff.mp found
  have listed : (children.map Child.index)[index]? = some index := by
    rw [placed, List.getElem?_range within]
  simpa only [List.getElem?_map, found, Option.map_some, Option.some.injEq] using listed

theorem start (placed : children.map Child.index = List.range children.length)
    (begins : ∀ child ∈ children, runs (Task.ofChild child) (ofChild child) 0) :
    Gathering limit runs children (children.map ofChild) (List.replicate children.length none)
      (List.replicate children.length 0) := by
  have places : (children.map ofChild).map place = List.range children.length := by
    rw [List.map_map]
    exact placed
  refine ⟨List.length_replicate, List.length_replicate, places ▸ List.nodup_range, fun index => ?_, ?_, ?_⟩
  · rw [places, List.mem_range, List.getElem?_replicate]
    split
    · simp only [*]
    · simp only [*, reduceCtorEq]
  · intro index child value part _ filled
    rw [List.getElem?_replicate] at filled
    split at filled
    · cases filled
    · cases filled
  · intro work child part member found told
    obtain ⟨one, among, rfl⟩ := List.mem_map.mp member
    obtain ⟨index, same⟩ := List.mem_iff_getElem?.mp among
    have own : children[one.index]? = some one := by rw [index_eq placed same, same]
    have equal : one = child := Option.some.inj (own.symm.trans found)
    have none : part = 0 := List.eq_of_mem_replicate (List.mem_of_getElem? told)
    rw [none, ← equal]
    exact begins one among

theorem mem_pending {work one : Work} :
    one ∈ before ++ work :: after ↔ one = work ∨ one ∈ before ++ after :=
  List.perm_middle.mem_iff.trans List.mem_cons

theorem exists_child {work : Work}
    (gathering : Gathering limit runs children (before ++ work :: after) slots parts) :
    ∃ child part, children[work.place]? = some child ∧ parts[work.place]? = some part ∧
      runs (Task.ofChild child) work part := by
  have member : work ∈ before ++ work :: after := mem_pending.mpr (.inl rfl)
  have empty := (gathering.vacant work.place).mp (List.mem_map_of_mem member)
  obtain ⟨within, _⟩ := List.getElem?_eq_some_iff.mp empty
  have known : work.place < children.length := gathering.slotted ▸ within
  have counted : work.place < parts.length := gathering.parted ▸ known
  have found := List.getElem?_eq_getElem known
  have told := List.getElem?_eq_getElem counted
  exact ⟨_, _, found, told, gathering.running work _ _ member found told⟩

theorem place_ne {work other : Work} (distinct : ((before ++ work :: after).map place).Nodup)
    (member : other ∈ before ++ after) : other.place ≠ work.place := by
  rw [List.map_append, List.map_cons] at distinct
  have apart := (List.nodup_middle.mp distinct).notMem
  rw [← List.map_append] at apart
  intro same
  exact apart (same ▸ List.mem_map_of_mem member)

theorem advance {work next : Work} {told : List Event}
    (gathering : Gathering limit runs children (before ++ work :: after) slots parts)
    (stays : next.place = work.place)
    (runs_next : ∀ child part, runs (Task.ofChild child) work part →
      runs (Task.ofChild child) next (part + told)) :
    ∃ later, Gathering limit runs children (before ++ next :: after) slots later ∧
      later.sum = parts.sum + told := by
  obtain ⟨own, part, found, known, run⟩ := gathering.exists_child
  have places : (before ++ next :: after).map place = (before ++ work :: after).map place := by
    simp only [List.map_append, List.map_cons, stays]
  have open_slot : slots[work.place]? = some none :=
    (gathering.vacant work.place).mp (List.mem_map_of_mem (mem_pending.mpr (.inl rfl)))
  have elsewhere : ∀ index, index ≠ work.place →
      (parts.modify work.place (· + told))[index]? = parts[index]? := by
    intro index other
    exact List.getElem?_modify_ne _ parts (Ne.symm other)
  refine ⟨parts.modify work.place (· + told), ⟨gathering.slotted, ?_, ?_, ?_, ?_, ?_⟩, ?_⟩
  · rw [List.length_modify]
    exact gathering.parted
  · exact places ▸ gathering.distinct
  · exact places ▸ gathering.vacant
  · intro index child value part reached full counted
    have other : index ≠ work.place := by
      intro same
      subst same
      rw [open_slot] at full
      cases full
    rw [elsewhere index other] at counted
    exact gathering.filled index child value part reached full counted
  · intro one child share member reached counted
    rcases mem_pending.mp member with rfl | among
    · rw [stays] at reached counted
      rw [List.getElem?_modify_eq, known] at counted
      cases counted
      cases found.symm.trans reached
      exact runs_next own part run
    · rw [elsewhere _ (place_ne gathering.distinct among)] at counted
      exact gathering.running one child share (mem_pending.mpr (.inr among)) reached counted
  · exact sum_modify_add told (List.getElem?_eq_some_iff.mp known).1

theorem report {index : Nat} {value : Value}
    (gathering : Gathering limit runs children (before ++ .done index (.ok value) :: after) slots parts)
    (ended : ∀ child part, runs (Task.ofChild child) (.done index (.ok value)) part →
      ∃ told : List Event, (Task.ofChild child).Ends limit (.ok value) told ∧ part = told) :
    Gathering limit runs children (before ++ after) (slots.set index (some value)) parts := by
  obtain ⟨own, part, found, known, run⟩ := gathering.exists_child
  have fresh : ∀ one ∈ before ++ after, one.place ≠ index :=
    fun one member => place_ne gathering.distinct member
  have within : index < slots.length :=
    (List.getElem?_eq_some_iff.mp ((gathering.vacant index).mp (by simp [place]))).1
  refine ⟨?_, gathering.parted, ?_, fun other => ?_, ?_, ?_⟩
  · rw [List.length_set]
    exact gathering.slotted
  · have distinct := gathering.distinct
    rw [List.map_append, List.map_cons] at distinct
    rw [List.map_append]
    exact (List.nodup_middle.mp distinct).of_cons
  · rw [List.getElem?_set]
    by_cases same : index = other
    · subst same
      simp only [if_true, within]
      constructor
      · intro member
        obtain ⟨one, among, placed⟩ := List.mem_map.mp member
        exact absurd placed (fresh one among)
      · intro impossible
        cases impossible
    · rw [if_neg same, ← gathering.vacant other]
      simp only [List.map_append, List.map_cons, List.mem_append, List.mem_cons, place]
      simp only [Ne.symm same, false_or]
  · intro other child answer share reached full counted
    rw [List.getElem?_set] at full
    by_cases same : index = other
    · subst same
      simp only [if_true, within, Option.some.injEq] at full
      subst full
      cases found.symm.trans reached
      cases known.symm.trans counted
      exact ended own part run
    · rw [if_neg same] at full
      exact gathering.filled other child answer share reached full counted
  · intro one child share member reached counted
    exact gathering.running one child share (mem_pending.mpr (.inr member)) reached counted

theorem complete {results : List Value}
    (gathering : Gathering limit runs children [] (results.map some) parts) :
    ∃ told : List Event, (gathered limit children).Ends (.ok results) told ∧ parts.sum = told := by
  have counted : results.length = children.length := by
    rw [← gathering.slotted, List.length_map]
  refine ends_gathered counted gathering.parted fun index child value part found reached => ?_
  refine gathering.filled index child value part found ?_
  rw [List.getElem?_map, reached]
  rfl

end Gathering

end Work

end Skeletons
