import Mathlib.Algebra.Group.Nat.Defs
import Mathlib.Data.List.Sort
import Skeletons.Proofs.Number.Order
import Skeletons.Proofs.Program.Outcome
import Skeletons.Samples

namespace Skeletons.Samples

/-! ## Muscles -/

theorem expectNumbers_listOfNumbers (xs : List Number) : expectNumbers (listOfNumbers xs) = .ok xs := by
  have each (xs : List Number) : (xs.map Value.number).mapM expectNumber = .ok xs := by
    induction xs with
    | nil => rfl
    | cons x rest ih =>
      rw [List.map_cons, List.mapM_cons, ih]
      rfl
  exact each xs

theorem expectNumbers_error {value : Value}
    (other : ∀ items, value = .list items → ∃ item ∈ items, item.asNumber? = none) :
    ∃ text, expectNumbers value = .error text := by
  have refused (items : List Value) (stray : ∃ item ∈ items, item.asNumber? = none) :
      ∃ text, items.mapM expectNumber = .error text := by
    induction items with
    | nil => simp at stray
    | cons item rest ih =>
      rw [List.mapM_cons]
      cases head : expectNumber item with
      | error text => exact ⟨text, rfl⟩
      | ok x =>
        have later : ∃ item ∈ rest, item.asNumber? = none := by
          obtain ⟨held, member, none⟩ := stray
          rcases List.mem_cons.mp member with rfl | member
          · simp [expectNumber, none] at head
          · exact ⟨held, member, none⟩
        obtain ⟨text, failed⟩ := ih later
        rw [failed]
        exact ⟨text, rfl⟩
  cases value with
  | list items => exact refused items (other items rfl)
  | _ => exact ⟨_, rfl⟩

theorem longerThan_call (threshold : Nat) (xs : List Number) :
    (longerThan threshold).call (listOfNumbers xs) = .ok (decide (max threshold 1 < xs.length)) := by
  simp [Condition.call, longerThan, muscleResult, listOfNumbers, Value.asList?]

theorem halve_call (xs : List Number) : halve.call (listOfNumbers xs) = .ok ((halves xs).map listOfNumbers) := by
  simp only [Split.call, halve, expectNumbers_listOfNumbers]
  rfl

theorem sort_call (xs : List Number) : sort.call (listOfNumbers xs) = .ok (listOfNumbers (sortNumbers xs)) := by
  simp only [Execute.call, sort, expectNumbers_listOfNumbers]
  rfl

theorem mergeParts_call (first second : List Number) :
    mergeParts.call [listOfNumbers first, listOfNumbers second] = .ok (listOfNumbers (mergeSorted first second)) := by
  have numbers : [listOfNumbers first, listOfNumbers second].mapM expectNumbers = .ok [first, second] := by
    simp only [List.mapM_cons, List.mapM_nil, expectNumbers_listOfNumbers]
    rfl
  have begun : mergeSorted [] first = first := List.nil_merge first
  simp only [Merge.call, mergeParts, numbers]
  change Except.ok (listOfNumbers (mergeSorted (mergeSorted [] first) second)) = _
  rw [begun]

/-! ## The sorted list -/

theorem mergeSorted_perm (xs ys : List Number) : (mergeSorted xs ys).Perm (xs ++ ys) := List.merge_perm_append _

theorem sortNumbers_perm (xs : List Number) : (sortNumbers xs).Perm xs := List.mergeSort_perm xs _

theorem mergeSorted_eq_merge (xs ys : List Number) (proper : ∀ x ∈ xs ++ ys, x.isNaN = false) :
    mergeSorted xs ys = xs.merge ys fun x y => decide (x.rank ≤ y.rank) := by
  unfold mergeSorted
  induction xs, ys using List.merge.induct Number.le with
  | case1 ys => simp
  | case2 xs _ => simp
  | case3 x xs y ys below ih =>
    have places := (Number.le_iff_rank (proper x (by simp)) (proper y (by simp))).mp below
    rw [List.cons_merge_cons, List.cons_merge_cons, if_pos below, if_pos (decide_eq_true places)]
    rw [ih fun item member => proper item (List.mem_cons_of_mem x member)]
  | case4 x xs y ys above ih =>
    have places : ¬ decide (x.rank ≤ y.rank) = true := fun under =>
      above ((Number.le_iff_rank (proper x (by simp)) (proper y (by simp))).mpr (of_decide_eq_true under))
    rw [List.cons_merge_cons, List.cons_merge_cons, if_neg above, if_neg places]
    rw [ih fun item member => proper item ?_]
    simp only [List.mem_append, List.mem_cons] at member ⊢
    tauto

theorem mergeSorted_pairwise {xs ys : List Number} (proper : ∀ x ∈ xs ++ ys, x.isNaN = false)
    (first : xs.Pairwise (·.rank ≤ ·.rank)) (second : ys.Pairwise (·.rank ≤ ·.rank)) :
    (mergeSorted xs ys).Pairwise (·.rank ≤ ·.rank) := by
  let below (x y : Number) : Bool := decide (x.rank ≤ y.rank)
  have transitive (x y z : Number) (one : below x y = true) (other : below y z = true) : below x z = true :=
    decide_eq_true ((of_decide_eq_true one).trans (of_decide_eq_true other))
  have total (x y : Number) : (below x y || below y x) = true := by
    simp only [below, Bool.or_eq_true, decide_eq_true_eq]
    omega
  have merged := List.pairwise_merge transitive total xs ys (first.imp decide_eq_true) (second.imp decide_eq_true)
  rw [mergeSorted_eq_merge xs ys proper]
  exact merged.imp of_decide_eq_true

theorem sortNumbers_pairwise (xs : List Number) : (sortNumbers xs).Pairwise (·.rank ≤ ·.rank) :=
  (List.pairwise_mergeSort Number.totalLe_trans Number.totalLe_total xs).imp Number.rank_le_of_totalLe

/-- The list that `mergeSort` comes to, whatever limit it keeps to. -/
def sortHalves (threshold : Nat) (xs : List Number) : List Number :=
  if max threshold 1 < xs.length then
    mergeSorted (sortHalves threshold (xs.take (xs.length / 2))) (sortHalves threshold (xs.drop (xs.length / 2)))
  else sortNumbers xs
termination_by xs.length
decreasing_by
  all_goals simp only [List.length_take, List.length_drop]; omega

theorem sortHalves_long {threshold : Nat} {xs : List Number} (long : max threshold 1 < xs.length) :
    sortHalves threshold xs =
      mergeSorted (sortHalves threshold (xs.take (xs.length / 2)))
        (sortHalves threshold (xs.drop (xs.length / 2))) := by
  rw [sortHalves, if_pos long]

theorem sortHalves_short {threshold : Nat} {xs : List Number} (short : xs.length ≤ max threshold 1) :
    sortHalves threshold xs = sortNumbers xs := by
  rw [sortHalves, if_neg (Nat.not_lt.mpr short)]

theorem sortHalves_perm (threshold : Nat) (xs : List Number) : (sortHalves threshold xs).Perm xs := by
  fun_induction sortHalves threshold xs with
  | case1 xs long first second =>
    apply (mergeSorted_perm _ _).trans
    apply (first.append second).trans
    rw [List.take_append_drop]
  | case2 xs short => exact sortNumbers_perm xs

theorem sortHalves_pairwise (threshold : Nat) {xs : List Number} (proper : ∀ x ∈ xs, x.isNaN = false) :
    (sortHalves threshold xs).Pairwise (·.rank ≤ ·.rank) := by
  fun_induction sortHalves threshold xs with
  | case1 xs long first second =>
    apply mergeSorted_pairwise
    · intro x member
      apply proper
      rcases List.mem_append.mp member with member | member
      · exact List.mem_of_mem_take ((sortHalves_perm threshold _).mem_iff.mp member)
      · exact List.mem_of_mem_drop ((sortHalves_perm threshold _).mem_iff.mp member)
    · exact first fun x member => proper x (List.mem_of_mem_take member)
    · exact second fun x member => proper x (List.mem_of_mem_drop member)
  | case2 xs short => exact sortNumbers_pairwise xs

theorem sortHalves_ordered (threshold : Nat) {xs : List Number} (proper : ∀ x ∈ xs, x.isNaN = false) :
    (sortHalves threshold xs).Pairwise fun x y => x.le y = true := by
  have permuted := sortHalves_perm threshold xs
  apply (sortHalves_pairwise threshold proper).imp_of_mem
  intro x y first second below
  have one := proper x (permuted.mem_iff.mp first)
  have other := proper y (permuted.mem_iff.mp second)
  exact (Number.le_iff_rank one other).mpr below

/-! ## Dividing -/

/-- What dividing a list comes to when it may be halved `left` times more. -/
def divided (threshold limit left : Nat) (xs : List Number) : Outcomes Value :=
  if xs.length ≤ max threshold 1 * 2 ^ left then pure (listOfNumbers (sortHalves threshold xs))
  else Outcomes.fail (.configuration (.depthExceeded limit))

variable {threshold limit left : Nat} {xs : List Number}

theorem divided_short (short : xs.length ≤ max threshold 1) :
    divided threshold limit left xs = pure (listOfNumbers (sortNumbers xs)) := by
  have positive : 0 < 2 ^ left := Nat.two_pow_pos left
  have fits : xs.length ≤ max threshold 1 * 2 ^ left := short.trans (Nat.le_mul_of_pos_right _ positive)
  rw [divided, if_pos fits, sortHalves_short short]

theorem divided_zero (long : max threshold 1 < xs.length) :
    divided threshold limit 0 xs = Outcomes.fail (.configuration (.depthExceeded limit)) := by
  rw [divided, if_neg]
  omega

theorem divided_succ (long : max threshold 1 < xs.length) :
    (do let first ← divided threshold limit left (xs.take (xs.length / 2))
        let second ← divided threshold limit left (xs.drop (xs.length / 2))
        mergeParts.call [first, second]) = divided threshold limit (left + 1) xs := by
  have doubled : max threshold 1 * 2 ^ (left + 1) = max threshold 1 * 2 ^ left * 2 := by
    rw [Nat.pow_succ, Nat.mul_assoc]
  have shorter : (xs.take (xs.length / 2)).length = xs.length / 2 := by
    rw [List.length_take]
    omega
  have longer : (xs.drop (xs.length / 2)).length = xs.length - xs.length / 2 := List.length_drop
  unfold divided
  rw [shorter, longer, doubled]
  by_cases fits : xs.length ≤ max threshold 1 * 2 ^ left * 2
  · rw [if_pos (by omega), if_pos (by omega), if_pos fits, pure_bind, pure_bind, mergeParts_call]
    rw [sortHalves_long long]
    rfl
  -- The longer half is too long then. The shorter one may fail before it, and fails alike.
  · rw [if_neg fits]
    by_cases first : xs.length / 2 ≤ max threshold 1 * 2 ^ left
    · rw [if_pos first, if_neg (by omega), pure_bind, Outcomes.fail_bind]
    · rw [if_neg first, Outcomes.fail_bind]

/-- One step of the division: a short list is sorted, the halves of a long one are divided and merged. -/
theorem divide_listOfNumbers (threshold limit depth : Nat) (xs : List Number) :
    let solved := Outcomes.divide limit 1 (longerThan threshold) halve mergeParts fun input => sort.call input
    solved depth (listOfNumbers xs) =
      if max threshold 1 < xs.length then
        if limit < 1 + depth then Outcomes.fail (.configuration (.depthExceeded limit))
        else do
          let first ← solved (depth + 1) (listOfNumbers (xs.take (xs.length / 2)))
          let second ← solved (depth + 1) (listOfNumbers (xs.drop (xs.length / 2)))
          mergeParts.call [first, second]
      else pure (listOfNumbers (sortNumbers xs)) := by
  intro solved
  show Outcomes.divide limit 1 (longerThan threshold) halve mergeParts (fun input => sort.call input) depth _ = _
  rw [Outcomes.divide, longerThan_call, Outcomes.liftM_ok, pure_bind]
  by_cases long : max threshold 1 < xs.length
  · rw [if_pos (decide_eq_true long), if_pos long, halve_call, Outcomes.liftM_ok, pure_bind]
    simp only [halves, List.map_cons, List.map_nil, List.mapM_cons, List.mapM_nil, bind_assoc, pure_bind]
    rfl
  · rw [if_neg (by simpa using long), if_neg long, sort_call, Outcomes.liftM_ok]

theorem divide_eq_divided (depth : Nat) (room : depth + left = limit) :
    Outcomes.divide limit 1 (longerThan threshold) halve mergeParts (fun input => sort.call input) depth
      (listOfNumbers xs) = divided threshold limit left xs := by
  induction left generalizing depth xs with
  | zero =>
    rw [divide_listOfNumbers]
    by_cases long : max threshold 1 < xs.length
    · rw [if_pos long, if_pos (by omega), divided_zero long]
    · rw [if_neg long, divided_short (Nat.not_lt.mp long)]
  | succ left ih =>
    rw [divide_listOfNumbers]
    by_cases long : max threshold 1 < xs.length
    · have deeper : depth + 1 + left = limit := by omega
      rw [if_pos long, if_neg (by omega), ih (depth + 1) deeper, ← divided_succ long]
      simp only [ih (depth + 1) deeper]
    · rw [if_neg long, divided_short (Nat.not_lt.mp long)]

/-! ## Runs -/

def sorter (threshold : Nat) (next : UInt64) : Program := .ofSkeleton ((mergeSort threshold).run next).1

theorem mergeSort_listOfNumbers (threshold limit : Nat) (next : UInt64) (xs : List Number) :
    (sorter threshold next).outcomes limit (listOfNumbers xs) = divided threshold limit limit xs := by
  unfold sorter
  rw [Program.outcomes_ofSkeleton]
  exact divide_eq_divided 0 (Nat.zero_add limit)

theorem mergeSort_within {next : UInt64} (within : ¬ (sorter threshold next).outcomes limit (listOfNumbers xs)
      (.error (.configuration (.depthExceeded limit)))) :
    (sorter threshold next).outcomes limit (listOfNumbers xs) = pure (listOfNumbers (sortHalves threshold xs)) := by
  rw [mergeSort_listOfNumbers] at within ⊢
  apply if_pos
  by_contra exceeded
  apply within
  rw [divided, if_neg exceeded]
  rfl

theorem mergeSort_error (threshold limit : Nat) (next : UInt64) {input : Value}
    (other : ∀ items, input = .list items → ∃ item ∈ items, item.asNumber? = none) :
    ∃ name text, (name = "sort" ∨ name = "halve") ∧
      (sorter threshold next).outcomes limit input = Outcomes.fail (.muscle name text) := by
  obtain ⟨text, refused⟩ := expectNumbers_error other
  have unsorted : sort.call input = .error (.muscle "sort" text) := by
    simp only [Execute.call, sort, refused]
    rfl
  have unhalved : halve.call input = .error (.muscle "halve" text) := by
    simp only [Split.call, halve, refused]
    rfl
  have measured : ∃ long, (longerThan threshold).call input = .ok long := ⟨_, rfl⟩
  obtain ⟨long, measured⟩ := measured
  unfold sorter
  rw [Program.outcomes_ofSkeleton]
  show ∃ name text, _ ∧
    Outcomes.divide limit 1 (longerThan threshold) halve mergeParts (fun input => sort.call input) 0 input = _
  rw [Outcomes.divide, measured, Outcomes.liftM_ok, pure_bind]
  cases long with
  | false => exact ⟨"sort", text, .inl rfl, congrArg Outcomes.ofResult unsorted⟩
  | true =>
    refine ⟨"halve", text, .inr rfl, ?_⟩
    rw [if_pos rfl, unhalved, Outcomes.liftM_error, Outcomes.fail_bind]

/-- Merge sort sorts, and succeeds exactly within its limit: in a run that may nest splits `limit` deep, a list can
    be halved `limit` times. -/
theorem mergeSort_sorts (threshold limit : Nat) (next : UInt64) :
    (∀ xs : List Number, (∀ x ∈ xs, x.isNaN = false) →
      ((∃ value, (sorter threshold next).outcomes limit (listOfNumbers xs) (.ok value)) ↔
        xs.length ≤ max threshold 1 * 2 ^ limit) ∧
        (xs.length ≤ max threshold 1 * 2 ^ limit →
          ∃ ys : List Number, ys.Perm xs ∧ ys.Pairwise (fun x y => x.le y = true) ∧
            (sorter threshold next).outcomes limit (listOfNumbers xs) = pure (listOfNumbers ys)) ∧
        (max threshold 1 * 2 ^ limit < xs.length →
          (sorter threshold next).outcomes limit (listOfNumbers xs) =
            Outcomes.fail (.configuration (.depthExceeded limit)))) ∧
      ∀ input, (∀ items, input = .list items → ∃ item ∈ items, item.asNumber? = none) →
        ∃ name text, (name = "sort" ∨ name = "halve") ∧
          (sorter threshold next).outcomes limit input = Outcomes.fail (.muscle name text) := by
  constructor
  · intro xs proper
    rw [mergeSort_listOfNumbers]
    by_cases fits : xs.length ≤ max threshold 1 * 2 ^ limit
    · have came : divided threshold limit limit xs = pure (listOfNumbers (sortHalves threshold xs)) := if_pos fits
      have sorted := sortHalves_ordered threshold proper
      rw [came]
      refine ⟨⟨fun _ => fits, fun _ => ⟨_, rfl⟩⟩, fun _ => ⟨_, sortHalves_perm threshold xs, sorted, rfl⟩, ?_⟩
      exact fun exceeded => absurd fits (Nat.not_le.mpr exceeded)
    · have failed : divided threshold limit limit xs = Outcomes.fail (.configuration (.depthExceeded limit)) :=
        if_neg fits
      rw [failed]
      exact ⟨⟨nofun, fun within => absurd within fits⟩, fun within => absurd within fits, fun _ => rfl⟩
  · exact fun input other => mergeSort_error threshold limit next other

/-! ## Thresholds -/

theorem sortHalves_perm_sortHalves (threshold other : Nat) (xs : List Number) :
    (sortHalves threshold xs).Perm (sortHalves other xs) :=
  (sortHalves_perm threshold xs).trans (sortHalves_perm other xs).symm

theorem map_rank_sortHalves (threshold other : Nat) {xs : List Number} (proper : ∀ x ∈ xs, x.isNaN = false) :
    (sortHalves threshold xs).map Number.rank = (sortHalves other xs).map Number.rank := by
  have ordered (threshold : Nat) : ((sortHalves threshold xs).map Number.rank).Pairwise (· ≤ ·) :=
    List.pairwise_map.mpr (sortHalves_pairwise threshold proper)
  have permuted := (sortHalves_perm_sortHalves threshold other xs).map Number.rank
  exact List.Perm.eq_of_pairwise (fun _ _ _ _ => Int.le_antisymm) (ordered threshold) (ordered other) permuted

theorem sortHalves_unique (threshold other : Nat) {xs : List Number} (proper : ∀ x ∈ xs, x.isNaN = false)
    (oneZero : ¬ (Number.zero ∈ xs ∧ -Number.zero ∈ xs)) : sortHalves threshold xs = sortHalves other xs := by
  apply List.Perm.eq_of_pairwise _ (sortHalves_pairwise threshold proper) (sortHalves_pairwise other proper)
    (sortHalves_perm_sortHalves threshold other xs)
  intro x y first second below above
  have member := (sortHalves_perm threshold xs).mem_iff.mp first
  have also := (sortHalves_perm other xs).mem_iff.mp second
  -- Only the two zeros share a place, and the list does not hold both.
  rcases Number.eq_of_rank_eq (Int.le_antisymm below above) with same | ⟨nothing, neither⟩
  · exact same
  · rcases Number.zero_of_magnitude nothing with rfl | rfl <;> rcases Number.zero_of_magnitude neither with rfl | rfl
    · rfl
    · exact absurd ⟨member, also⟩ oneZero
    · exact absurd ⟨also, member⟩ oneZero
    · rfl

/-- Any two thresholds whose runs stay within the limit come to lists that are alike number by number, but for the
    sign of a zero; if not both zeros are in the list, they come to the same list. -/
theorem mergeSort_alike (threshold other limit : Nat) (next further : UInt64) (xs : List Number)
    (proper : ∀ x ∈ xs, x.isNaN = false)
    (within : ¬ (sorter threshold next).outcomes limit (listOfNumbers xs)
      (.error (.configuration (.depthExceeded limit))))
    (also : ¬ (sorter other further).outcomes limit (listOfNumbers xs)
      (.error (.configuration (.depthExceeded limit)))) :
    ∃ ys zs : List Number,
      (sorter threshold next).outcomes limit (listOfNumbers xs) = pure (listOfNumbers ys) ∧
        (sorter other further).outcomes limit (listOfNumbers xs) = pure (listOfNumbers zs) ∧
        List.Forall₂ (fun y z => y = z ∨ y.magnitude = 0 ∧ z.magnitude = 0) ys zs ∧
        (¬ (Number.zero ∈ xs ∧ -Number.zero ∈ xs) → ys = zs) := by
  refine ⟨_, _, mergeSort_within within, mergeSort_within also, ?_, sortHalves_unique threshold other proper⟩
  have level : List.Forall₂ Eq ((sortHalves threshold xs).map Number.rank) ((sortHalves other xs).map Number.rank) := by
    rw [List.forall₂_eq_eq_eq]
    exact map_rank_sortHalves threshold other proper
  have places := List.forall₂_map_right_iff.mp (List.forall₂_map_left_iff.mp level)
  exact places.imp fun y z => Number.eq_of_rank_eq

theorem mergeSort_alike_three :
    let xs : List Number := [.ofNat 2, .ofNat 3, .ofNat 1]
    ∃ ys : List Number,
      (sorter 1 0).outcomes 2 (listOfNumbers xs) = pure (listOfNumbers ys) ∧
        (sorter 3 0).outcomes 2 (listOfNumbers xs) = pure (listOfNumbers ys) := by
  intro xs
  have within (threshold : Nat) : ¬ (sorter threshold 0).outcomes 2 (listOfNumbers xs)
      (.error (.configuration (.depthExceeded 2))) := by
    have positive : 1 ≤ max threshold 1 := Nat.le_max_right threshold 1
    have fits : xs.length ≤ max threshold 1 * 2 ^ 2 := by
      show 3 ≤ _
      omega
    rw [mergeSort_listOfNumbers, divided, if_pos fits]
    nofun
  obtain ⟨ys, zs, first, second, _, same⟩ := mergeSort_alike 1 3 2 0 0 xs (by decide) (within 1) (within 3)
  have one := same (by decide)
  subst one
  exact ⟨ys, first, second⟩

/-- Where both zeros are in the list, the threshold decides which comes first. -/
theorem threshold_moves_zeros :
    (sorter 1 0).outcomes 1 (listOfNumbers [.zero, -.zero]) = pure (listOfNumbers [.zero, -.zero]) ∧
      (sorter 2 0).outcomes 1 (listOfNumbers [.zero, -.zero]) = pure (listOfNumbers [-.zero, .zero]) ∧
        [Number.zero, -.zero] ≠ [-.zero, .zero] := by
  have alone (x : Number) : sortHalves 1 [x] = [x] :=
    (sortHalves_short le_rfl).trans (List.mergeSort_singleton x)
  have merged : sortHalves 1 [.zero, -.zero] = [.zero, -.zero] := by
    rw [sortHalves_long (by decide)]
    show mergeSorted (sortHalves 1 [.zero]) (sortHalves 1 [-.zero]) = _
    rw [alone, alone, mergeSorted, List.cons_merge_cons, if_pos (by decide), List.nil_merge]
  have sorted : sortHalves 2 [.zero, -.zero] = [-.zero, .zero] := by
    rw [sortHalves_short (by decide), sortNumbers, List.mergeSort]
    show ([.zero].mergeSort Number.totalLe).merge ([-.zero].mergeSort Number.totalLe) Number.totalLe = _
    rw [List.mergeSort_singleton, List.mergeSort_singleton, List.cons_merge_cons, if_neg (by decide), List.merge_right]
  refine ⟨?_, ?_, by decide⟩
  · rw [mergeSort_listOfNumbers, divided, merged]
    rfl
  · rw [mergeSort_listOfNumbers, divided, sorted]
    rfl

end Skeletons.Samples
