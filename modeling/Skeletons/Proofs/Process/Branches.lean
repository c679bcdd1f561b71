import Mathlib.Algebra.Group.Nat.Defs
import Skeletons.Proofs.Event.Branches
import Skeletons.Proofs.Process.Iterate

namespace Skeletons

open Event

variable {α β σ : Type} {told : List Event} {room : Nat} {inside other : Trace → Prop}

/-- As far as an account has at most so many events, all of them told, it reports branches of the given
    traces only, and none of them twice. -/
def Account.Branches (told : List Event) (room : Nat) (account : Account α) (inside : Trace → Prop) : Prop :=
  ∀ events, events <+: account.events → events.length ≤ room → events ⊆ told →
    (branches events).Nodup ∧ ∀ trace ∈ branches events, inside trace

namespace Account.Branches

theorem of_silent {account : Account α} (silent : branches account.events = []) :
    account.Branches told room inside := by
  intro events start _ _
  obtain ⟨rest, whole⟩ := start
  rw [← whole, branches_append] at silent
  rw [(List.append_eq_nil_iff.mp silent).1]
  exact ⟨List.nodup_nil, fun _ member => nomatch member⟩

theorem no_room (account : Account α) : account.Branches told 0 inside := by
  intro events _ short _
  rw [List.eq_nil_of_length_eq_zero (Nat.le_zero.mp short)]
  exact ⟨List.nodup_nil, fun _ member => nomatch member⟩

theorem weaken {account : Account α} {less : Nat} (given : account.Branches told room inside)
    (fewer : less ≤ room) (wider : ∀ trace, inside trace → other trace) :
    account.Branches told less other := by
  intro events start short among
  obtain ⟨nodup, each⟩ := given events start (short.trans fewer) among
  exact ⟨nodup, fun trace member => wider trace (each trace member)⟩

theorem bind {account : Account α} {next : α → Account β} {first : Trace → Prop} (rest : Trace → Prop)
    (early : account.Branches told room first)
    (late : ∀ value, account.outcome = some (.ok value) → account.events.length ≤ room →
      account.events ⊆ told → (next value).Branches told (room - account.events.length) rest)
    (apart : ∀ trace, first trace → ¬ rest trace) (upper : ∀ trace, first trace → inside trace)
    (lower : ∀ trace, rest trace → inside trace) : (account >>= next).Branches told room inside := by
  obtain ⟨outcome, before⟩ := account
  match outcome with
  | none => exact early.weaken le_rfl upper
  | some (.error failure) => exact early.weaken le_rfl upper
  | some (.ok value) =>
    intro events start short among
    have begun : before <+: before ++ (next value).events := List.prefix_append _ _
    rcases List.prefix_or_prefix_of_prefix start begun with inner | outer
    · exact early.weaken le_rfl upper events inner short among
    · obtain ⟨after, rfl⟩ := outer
      have further : after <+: (next value).events := (List.prefix_append_right_inj before).mp start
      simp only [List.length_append] at short
      have told_before := List.append_subset.mp among
      obtain ⟨nodup, each⟩ := early before List.prefix_rfl (by omega) told_before.1
      obtain ⟨nodup_after, each_after⟩ :=
        late value rfl (by dsimp only; omega) told_before.1 after further (by dsimp only; omega) told_before.2
      rw [branches_append]
      refine ⟨List.nodup_append.mpr ⟨nodup, nodup_after, ?_⟩, ?_⟩
      · rintro trace member _ shared rfl
        exact apart trace (each trace member) (each_after trace shared)
      · intro trace member
        rcases List.mem_append.mp member with member | member
        · exact upper trace (each trace member)
        · exact lower trace (each_after trace member)

end Account.Branches

def Process.Branches (told : List Event) (room : Nat) (process : Process α) (inside : Trace → Prop) : Prop :=
  ∀ effort, (process.within effort).Branches told room inside

namespace Process.Branches

variable {process : Process α} {next : α → Process β}

theorem weaken {less : Nat} (given : process.Branches told room inside) (fewer : less ≤ room)
    (wider : ∀ trace, inside trace → other trace) : process.Branches told less other :=
  fun effort => (given effort).weaken fewer wider

theorem no_room (process : Process α) : process.Branches told 0 inside :=
  fun effort => Account.Branches.no_room (process.within effort)

theorem bind {first : Trace → Prop} (rest : Trace → Prop) (early : process.Branches told room first)
    (late : ∀ value effort, (process.within effort).outcome = some (.ok value) →
      (process.within effort).events.length ≤ room → (process.within effort).events ⊆ told →
        (next value).Branches told (room - (process.within effort).events.length) rest)
    (apart : ∀ trace, first trace → ¬ rest trace) (upper : ∀ trace, first trace → inside trace)
    (lower : ∀ trace, rest trace → inside trace) : (process >>= next).Branches told room inside :=
  fun effort => (early effort).bind rest
    (fun value ended short among => late value effort ended short among effort) apart upper lower

theorem ofResult (result : Except Failure α) : (liftM result : Process α).Branches told room inside :=
  fun _ => .of_silent rfl

theorem pure (value : α) : (Pure.pure value : Process α).Branches told room inside := ofResult (.ok value)

theorem fail (failure : Failure) : (Process.fail failure : Process α).Branches told room inside :=
  ofResult (.error failure)

theorem bind_of_silent (silent : process.Branches told room fun _ => False)
    (rest : ∀ value, (next value).Branches told room inside) : (process >>= next).Branches told room inside :=
  silent.bind inside (fun value _ _ _ _ => (rest value).weaken (Nat.sub_le _ _) fun _ => id)
    (fun _ impossible => impossible.elim) (fun _ impossible => impossible.elim) fun _ => id

theorem bind_silent (given : process.Branches told room inside)
    (silent : ∀ value, (next value).Branches told room fun _ => False) :
    (process >>= next).Branches told room inside :=
  given.bind (fun _ => False) (fun value _ _ _ _ => (silent value).weaken (Nat.sub_le _ _) fun _ => id)
    (fun _ _ impossible => impossible) (fun _ => id) fun _ impossible => impossible.elim

theorem note_bind {event : Event} {next : Unit → Process β} (silent : event.isBranch = false)
    (rest : event ∈ told → (next ()).Branches told room inside) :
    (note [event] >>= next).Branches told room inside := by
  have nothing : (note [event]).Branches told room fun _ => False :=
    fun _ => .of_silent (by simp [note, Account.note, branches, silent])
  refine nothing.bind inside ?_ (fun _ impossible => impossible.elim)
    (fun _ impossible => impossible.elim) fun _ => id
  intro _ _ _ _ among
  exact (rest (among (List.mem_singleton_self event))).weaken (Nat.sub_le _ _) fun _ => id

theorem branch_bind {event : Event} {next : Unit → Process β} (branch : event.isBranch = true)
    (here : event ∈ told → inside event.trace)
    (rest : event ∈ told →
      (next ()).Branches told room fun trace => inside trace ∧ trace ≠ event.trace) :
    (note [event] >>= next).Branches told room inside := by
  have one : (note [event]).Branches told room fun trace => trace = event.trace ∧ event ∈ told := by
    intro _ events start _ among
    rcases List.prefix_cons_iff.mp start with rfl | ⟨after, rfl, nothing⟩
    · exact ⟨List.nodup_nil, fun _ member => nomatch member⟩
    · rw [List.prefix_nil.mp nothing] at among ⊢
      simpa [branches, branch] using among
  refine one.bind (fun trace => inside trace ∧ trace ≠ event.trace) ?_ ?_ ?_ ?_
  · intro _ _ _ _ among
    exact (rest (among (List.mem_singleton_self event))).weaken (Nat.sub_le _ _) fun _ => id
  · exact fun _ same different => different.2 same.1
  · exact fun _ same => same.1 ▸ here same.2
  · exact fun _ => And.left

theorem mapM_from {work : σ × Nat → Process α} (inside : Nat → Trace → Prop) {bound : Nat}
    (each : ∀ part index, index < bound → (work (part, index)).Branches told bound (inside index))
    (speaks : ∀ item effort, ((work item).within effort).events ≠ [])
    (apart : ∀ first second trace, first < bound → second < bound → inside first trace →
      inside second trace → first = second) (parts : List σ) (start room : Nat) (fits : start + room ≤ bound) :
    ((parts.zipIdx start).mapM work).Branches told room fun trace =>
      ∃ index, start ≤ index ∧ index < bound ∧ inside index trace := by
  induction parts generalizing start room with
  | nil => exact pure []
  | cons part rest ih =>
    rcases room with _ | room
    · exact no_room _
    · rw [List.zipIdx_cons, List.mapM_cons]
      have head : (work (part, start)).Branches told (room + 1) (inside start) :=
        (each part start (by omega)).weaken (by omega) fun _ => id
      refine head.bind (fun trace => ∃ index, start + 1 ≤ index ∧ index < bound ∧ inside index trace)
        ?_ ?_ ?_ ?_
      · intro value effort _ _ _
        have spoken := List.length_pos_iff.mpr (speaks (part, start) effort)
        refine bind_silent (ih (start + 1) _ (by omega)) fun _ => pure _
      · intro trace first later
        obtain ⟨index, above, below, second⟩ := later
        have same := apart start index trace (by omega) below first second
        omega
      · exact fun trace first => ⟨start, le_rfl, by omega, first⟩
      · intro trace later
        obtain ⟨index, above, below, second⟩ := later
        exact ⟨index, by omega, below, second⟩

theorem mapM {work : σ × Nat → Process α} (inside : Nat → Trace → Prop)
    (each : ∀ part index, index < room → (work (part, index)).Branches told room (inside index))
    (speaks : ∀ item effort, ((work item).within effort).events ≠ [])
    (apart : ∀ first second trace, first < room → second < room → inside first trace →
      inside second trace → first = second) (within : ∀ index trace, index < room → inside index trace → other trace)
    (parts : List σ) : (parts.zipIdx.mapM work).Branches told room other := by
  have row := mapM_from inside each speaks apart parts 0 room (Nat.zero_add room).le
  refine row.weaken le_rfl fun trace => ?_
  rintro ⟨index, _, below, here⟩
  exact within index trace below here

theorem foldlM {work : α → σ → Process α} (inside : σ → Trace → Prop) {items : List σ}
    (each : ∀ value, ∀ item ∈ items, (work value item).Branches told room (inside item))
    (apart : ∀ first ∈ items, ∀ second ∈ items, ∀ trace, inside first trace → inside second trace →
      first = second) (nodup : items.Nodup) (start : α) :
    (items.foldlM work start).Branches told room fun trace => ∃ item ∈ items, inside item trace := by
  induction items generalizing start with
  | nil => exact pure start
  | cons item rest ih =>
    rw [List.foldlM_cons]
    have head := each start item (List.mem_cons_self ..)
    refine head.bind (fun trace => ∃ item ∈ rest, inside item trace) ?_ ?_ ?_ ?_
    · intro value _ _ _ _
      refine (ih ?_ ?_ (List.nodup_cons.mp nodup).2 value).weaken (Nat.sub_le _ _) fun _ => id
      · exact fun value item member => each value item (List.mem_cons_of_mem _ member)
      · exact fun first member second among =>
          apart first (List.mem_cons_of_mem _ member) second (List.mem_cons_of_mem _ among)
    · intro trace first later
      obtain ⟨second, member, also⟩ := later
      have same := apart item (List.mem_cons_self ..) second (List.mem_cons_of_mem _ member) trace first also
      exact (List.nodup_cons.mp nodup).1 (same ▸ member)
    · exact fun trace first => ⟨item, List.mem_cons_self .., first⟩
    · exact fun trace ⟨second, member, also⟩ => ⟨second, List.mem_cons_of_mem _ member, also⟩

/-- Every round of a loop reports branches of its own, and at least one event, so its number does not exceed
    the room there is. -/
theorem iterate {step : UInt64 × β → Process ((UInt64 × β) ⊕ α)} (inside : UInt64 → Trace → Prop)
    (each : ∀ round value, (step (round, value)).Branches told (2 ^ 64) (inside round))
    (counts : ∀ round value effort next,
      ((step (round, value)).within effort).outcome = some (.ok (.inl next)) → next.1 = round + 1)
    (speaks : ∀ state effort, ((step state).within effort).events ≠ [])
    (apart : ∀ first second trace, inside first trace → inside second trace → first = second)
    (round : UInt64) (value : β) {room : Nat} (fits : round.toNat + room ≤ 2 ^ 64) :
    (Process.iterate step (round, value)).Branches told room fun trace =>
      ∃ number, round ≤ number ∧ inside number trace := by
  intro effort
  induction effort generalizing round value room with
  | zero => exact .of_silent rfl
  | succ effort ih =>
    have first : ((step (round, value)).within effort).Branches told room (inside round) :=
      (each round value effort).weaken (by omega) fun _ => id
    refine first.bind (fun trace => ∃ number, round < number ∧ inside number trace) ?_ ?_ ?_ ?_
    · intro result ended _ _
      have spoken := List.length_pos_iff.mpr (speaks (round, value) effort)
      rcases result with ⟨next, reached⟩ | answer
      · have counted : next = round + 1 := counts round value effort _ ended
        by_cases last : round.toNat + 1 < 2 ^ 64
        · have more : next.toNat = round.toNat + 1 := by
            rw [counted, UInt64.toNat_add, UInt64.toNat_one]
            omega
          refine (ih next reached (by omega)).weaken le_rfl fun trace => ?_
          rintro ⟨number, above, second⟩
          have beyond := UInt64.le_iff_toNat_le.mp above
          exact ⟨number, UInt64.lt_iff_toNat_lt.mpr (by omega), second⟩
        · -- The number of the next round wraps, but there is no room left for what that round reports.
          have full : room - ((step (round, value)).within effort).events.length = 0 := by omega
          rw [full]
          exact .no_room _
      · exact .of_silent rfl
    · intro trace first later
      obtain ⟨number, above, second⟩ := later
      exact absurd (apart _ _ _ first second) (UInt64.ne_of_lt above)
    · exact fun trace first => ⟨round, UInt64.le_refl _, first⟩
    · exact fun trace ⟨number, above, second⟩ => ⟨number, UInt64.le_of_lt above, second⟩

end Process.Branches

end Skeletons
