import Skeletons.Listener.Registry

namespace Skeletons

theorem eraseP_eq_filter {α : Type} (key : α → Nat) {items : List α} (distinct : (items.map key).Nodup)
    (id : Nat) : items.eraseP (key · = id) = items.filter (key · ≠ id) := by
  induction items with
  | nil => rfl
  | cons item rest ih =>
    obtain ⟨fresh, apart⟩ := List.nodup_cons.mp distinct
    by_cases same : key item = id
    · have kept : rest.filter (key · ≠ id) = rest := by
        apply List.filter_eq_self.mpr
        intro other member
        have differs : key other ≠ id := by
          intro equal
          exact fresh (List.mem_map.mpr ⟨other, member, equal.trans same.symm⟩)
        simpa using differs
      simpa [same] using kept.symm
    · simpa [same] using ih apart

theorem length_filter_add_one {α : Type} (key : α → Nat) {items : List α} (distinct : (items.map key).Nodup)
    {id : Nat} (held : ∃ item ∈ items, key item = id) :
    (items.filter (key · ≠ id)).length + 1 = items.length := by
  obtain ⟨item, member, same⟩ := held
  have matches_key : decide (key item = id) = true := by simpa using same
  rw [← eraseP_eq_filter key distinct, List.length_eraseP_of_mem member matches_key]
  exact Nat.succ_pred_eq_of_pos (List.length_pos_of_mem member)

namespace Shelf

variable {L : Type} {shelves : List (Shelf L)} {skeleton : UInt64} {id : Nat}

def on (skeleton : UInt64) (shelves : List (Shelf L)) : List (Registration L) :=
  match shelves.find? (·.skeleton = skeleton) with
  | none => []
  | some shelf => shelf.entries

@[simp] theorem on_nil : on skeleton ([] : List (Shelf L)) = [] := rfl

theorem on_cons (shelf : Shelf L) (rest : List (Shelf L)) :
    on skeleton (shelf :: rest) = if shelf.skeleton = skeleton then shelf.entries else on skeleton rest := by
  by_cases here : shelf.skeleton = skeleton
  · simp [on, here]
  · simp [on, here]

theorem mem_on {entry : Registration L} (member : entry ∈ on skeleton shelves) :
    ∃ shelf ∈ shelves, shelf.skeleton = skeleton ∧ entry ∈ shelf.entries := by
  rw [on] at member
  split at member
  · cases member
  · rename_i shelf found
    have here := List.find?_some found
    exact ⟨shelf, List.mem_of_find?_eq_some found, by simpa using here, member⟩

theorem on_of_mem (single : (shelves.map (·.skeleton)).Nodup) {shelf : Shelf L} (member : shelf ∈ shelves) :
    on shelf.skeleton shelves = shelf.entries := by
  induction shelves with
  | nil => cases member
  | cons first rest ih =>
    obtain ⟨fresh, apart⟩ := List.nodup_cons.mp single
    rw [on_cons]
    rcases List.mem_cons.mp member with rfl | among
    · rw [if_pos rfl]
    · have differs : first.skeleton ≠ shelf.skeleton := by
        intro same
        exact fresh (List.mem_map.mpr ⟨shelf, among, same.symm⟩)
      rw [if_neg differs]
      exact ih apart among

theorem on_eq_nil (absent : skeleton ∉ shelves.map (·.skeleton)) : on skeleton shelves = [] := by
  apply List.eq_nil_iff_forall_not_mem.mpr
  intro entry member
  obtain ⟨shelf, among, same, _⟩ := mem_on member
  exact absent (same ▸ List.mem_map_of_mem among)

/-- Where no two shelves are for one skeleton, their order makes no difference. -/
theorem on_perm {others : List (Shelf L)} (single : (shelves.map (·.skeleton)).Nodup)
    (rearranged : shelves.Perm others) (skeleton : UInt64) : on skeleton others = on skeleton shelves := by
  have alone : (others.map (·.skeleton)).Nodup := (rearranged.map _).nodup_iff.mp single
  by_cases present : skeleton ∈ shelves.map (·.skeleton)
  · obtain ⟨shelf, member, rfl⟩ := List.mem_map.mp present
    rw [on_of_mem single member, on_of_mem alone (rearranged.mem_iff.mp member)]
  · have absent : skeleton ∉ others.map (·.skeleton) := fun among =>
      present ((rearranged.map _).mem_iff.mpr among)
    rw [on_eq_nil present, on_eq_nil absent]

@[simp] theorem total_append (first second : List (Shelf L)) :
    total (first ++ second) = total first + total second := by
  induction first with
  | nil => exact (Nat.zero_add _).symm
  | cons shelf rest ih =>
    simp only [List.cons_append, total, ih]
    omega

theorem total_perm {others : List (Shelf L)} (rearranged : shelves.Perm others) :
    total shelves = total others := by
  induction rearranged with
  | nil => rfl
  | cons shelf _ ih => simp only [total, ih]
  | swap first second rest =>
    simp only [total]
    omega
  | trans _ _ first second => exact first.trans second

variable (skeleton : UInt64) (entry : Registration L)

theorem on_put (key : UInt64) : on key (put skeleton entry shelves) =
    if skeleton = key then on key shelves ++ [entry] else on key shelves := by
  induction shelves with
  | nil => simp [put, on_cons]
  | cons shelf rest ih =>
    by_cases here : shelf.skeleton = skeleton
    · by_cases same : skeleton = key <;> simp [put, here, on_cons, same]
    · by_cases same : shelf.skeleton = key
      · have other : ¬ skeleton = key := fun equal => here (same.trans equal.symm)
        rw [put, if_neg here, on_cons, if_pos same, if_neg other, on_cons, if_pos same]
      · simp [put, here, on_cons, same, ih]

theorem skeletons_put : (put skeleton entry shelves).map (·.skeleton) =
    if skeleton ∈ shelves.map (·.skeleton) then shelves.map (·.skeleton)
    else shelves.map (·.skeleton) ++ [skeleton] := by
  induction shelves with
  | nil => rfl
  | cons shelf rest ih =>
    by_cases here : shelf.skeleton = skeleton
    · simp [put, here]
    · have other : ¬ skeleton = shelf.skeleton := Ne.symm here
      simp only [put, here, if_false, List.map_cons, ih, List.mem_cons, other, false_or]
      split <;> rfl

theorem nodup_put (single : (shelves.map (·.skeleton)).Nodup) :
    ((put skeleton entry shelves).map (·.skeleton)).Nodup := by
  rw [skeletons_put]
  split
  · exact single
  · rename_i absent
    apply List.nodup_append.mpr
    refine ⟨single, List.nodup_cons.mpr ⟨List.not_mem_nil, List.nodup_nil⟩, fun key member other alone same => ?_⟩
    rw [List.mem_singleton.mp alone] at same
    exact absent (same ▸ member)

theorem total_put : total (put skeleton entry shelves) = total shelves + 1 := by
  induction shelves with
  | nil => rfl
  | cons shelf rest ih =>
    by_cases here : shelf.skeleton = skeleton
    · simp only [put, here, if_true, total, List.length_append, List.length_singleton]
      omega
    · simp only [put, here, if_false, total, ih]
      omega

variable {skeleton entry}

theorem take?_cases (id : Nat) (shelves : List (Shelf L)) :
    (take? id shelves = none ∧ ∀ shelf ∈ shelves, ∀ entry ∈ shelf.entries, entry.id ≠ id) ∨
      ∃ before shelf after, shelves = before ++ shelf :: after ∧ (∃ entry ∈ shelf.entries, entry.id = id) ∧
        take? id shelves =
          some (before ++ { shelf with entries := shelf.entries.eraseP (·.id = id) } :: after) := by
  induction shelves with
  | nil => exact .inl ⟨rfl, fun _ impossible => nomatch impossible⟩
  | cons shelf rest ih =>
    by_cases here : shelf.entries.any (·.id = id)
    · have held : ∃ entry ∈ shelf.entries, entry.id = id := by simpa using here
      refine .inr ⟨[], shelf, rest, rfl, held, ?_⟩
      simp only [take?, here, if_true, List.nil_append]
    · have passed : take? id (shelf :: rest) = (take? id rest).map (shelf :: ·) := by
        simp only [take?, here, Bool.false_eq_true, if_false]
      rcases ih with ⟨none, free⟩ | ⟨before, found, after, rfl, held, taken⟩
      · refine .inl ⟨by rw [passed, none]; rfl, List.forall_mem_cons.mpr ⟨?_, free⟩⟩
        simpa using here
      · refine .inr ⟨shelf :: before, found, after, rfl, held, ?_⟩
        rw [passed, taken]
        rfl

theorem on_replaced {before after : List (Shelf L)} {shelf : Shelf L}
    (single : ((before ++ shelf :: after).map (·.skeleton)).Nodup) (entries : List (Registration L))
    (key : UInt64) :
    on key (before ++ { shelf with entries } :: after) =
      if shelf.skeleton = key then entries else on key (before ++ shelf :: after) := by
  have alone : ((before ++ { shelf with entries } :: after).map (·.skeleton)).Nodup := by
    simpa using single
  by_cases here : shelf.skeleton = key
  · subst here
    rw [if_pos rfl]
    exact on_of_mem alone (List.mem_append_right before (List.mem_cons_self ..))
  · rw [if_neg here]
    have passes (one : Shelf L) (other : one.skeleton ≠ key) :
        on key (before ++ one :: after) = on key (before ++ after) := by
      simp [on, List.find?_append, other]
    rw [passes shelf here, passes { shelf with entries } here]

end Shelf

end Skeletons
