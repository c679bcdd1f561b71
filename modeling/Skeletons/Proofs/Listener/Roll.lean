import Mathlib.Data.List.Nodup
import Skeletons.Proofs.Listener.Shelf

namespace Skeletons

structure Enrolment (L : Type) extends Registration L where
  skeleton : Option UInt64

namespace Registry

inductive Call (L : Type) where
  | add (skeleton : Skeleton) (declared : Option Kind) (listener : L)
  | addGeneral (listener : L)
  | remove (id : Nat)
  | size

inductive Reply where
  | added (id : Nat)
  | refused (error : BadListener)
  | removed (found : Bool)
  | sized (count : Nat)
deriving DecidableEq

variable {L : Type}

def respond (registry : Registry L) : Call L → Reply × Registry L
  | .add skeleton declared listener =>
    match registry.add skeleton declared listener with
    | .ok (id, next) => (.added id, next)
    | .error error => (.refused error, registry)
  | .addGeneral listener => (.added (registry.addGeneral listener).1, (registry.addGeneral listener).2)
  | .remove id => (.removed (registry.remove id).1, (registry.remove id).2)
  | .size => (.sized registry.size, registry)

abbrev History (L : Type) := List (Call L × Reply)

/-- The registries that calls lead to from an empty one. Shelves may change places at any time. -/
inductive Reaches : History L → Registry L → Prop where
  | fresh : Reaches [] {}
  | called {history : History L} {registry : Registry L} (call : Call L) :
    Reaches history registry →
      Reaches (history ++ [(call, (registry.respond call).1)]) (registry.respond call).2
  | rearranged {history : History L} {registry : Registry L} {shelves : List (Shelf L)} :
    Reaches history registry → registry.shelves.Perm shelves → Reaches history { registry with shelves }

namespace History

def numbers (history : History L) : List Nat :=
  history.filterMap fun
    | (_, .added id) => some id
    | _ => none

def removals (history : History L) : Nat := history.countP (·.2 = .removed true)

/-- Whether a number was given and its registration not taken out since. -/
def InForce (history : History L) (id : Nat) : Prop :=
  ∃ before call after, history = before ++ (call, .added id) :: after ∧ (.remove id, .removed true) ∉ after

def enter (roll : List (Enrolment L)) : Call L × Reply → List (Enrolment L)
  | (.add skeleton _ listener, .added id) => roll ++ [⟨⟨id, listener⟩, some skeleton.id⟩]
  | (.addGeneral listener, .added id) => roll ++ [⟨⟨id, listener⟩, none⟩]
  | (.remove id, .removed true) => roll.filter (·.id ≠ id)
  | _ => roll

/-- The registrations in force after some calls, in the order in which they were made. -/
def roll (history : History L) : List (Enrolment L) := history.foldl enter []

@[simp] theorem roll_snoc (history : History L) (last : Call L × Reply) :
    roll (history ++ [last]) = enter (roll history) last := List.foldl_append

@[simp] theorem numbers_append (first second : History L) :
    numbers (first ++ second) = numbers first ++ numbers second := List.filterMap_append

@[simp] theorem removals_append (first second : History L) :
    removals (first ++ second) = removals first + removals second := List.countP_append

theorem inForce_snoc (history : History L) (last : Call L × Reply) (id : Nat) :
    InForce (history ++ [last]) id ↔
      last.2 = .added id ∨ InForce history id ∧ last ≠ (.remove id, .removed true) := by
  constructor
  · rintro ⟨before, call, after, same, kept⟩
    rcases List.eq_nil_or_concat after with rfl | ⟨early, final, rfl⟩
    · have ended := (List.append_inj' same rfl).2
      cases ended
      exact .inl rfl
    · rw [List.concat_eq_append, ← List.cons_append, ← List.append_assoc] at same
      obtain ⟨rest, alike⟩ := List.append_inj' same rfl
      cases alike
      rw [List.concat_eq_append, List.mem_append, not_or] at kept
      refine .inr ⟨⟨before, call, early, rest, kept.1⟩, fun removed => kept.2 ?_⟩
      rw [removed]
      exact List.mem_singleton_self _
  · rintro (given | ⟨⟨before, call, after, rfl, kept⟩, other⟩)
    · obtain ⟨call, reply⟩ := last
      cases given
      exact ⟨history, call, [], rfl, List.not_mem_nil⟩
    · refine ⟨before, call, after ++ [last], by simp, fun member => ?_⟩
      rcases List.mem_append.mp member with among | final
      · exact kept among
      · exact other (List.mem_singleton.mp final).symm

end History

open History

def entries (registry : Registry L) : Option UInt64 → List (Registration L)
  | none => registry.general
  | some skeleton => Shelf.on skeleton registry.shelves

def listed (roll : List (Enrolment L)) (skeleton : Option UInt64) : List (Registration L) :=
  (roll.filter (·.skeleton = skeleton)).map (·.toRegistration)

theorem listed_append (first second : List (Enrolment L)) (skeleton : Option UInt64) :
    listed (first ++ second) skeleton = listed first skeleton ++ listed second skeleton := by
  simp [listed]

theorem listed_without (roll : List (Enrolment L)) (id : Nat) (skeleton : Option UInt64) :
    listed (roll.filter (·.id ≠ id)) skeleton = (listed roll skeleton).filter (·.id ≠ id) := by
  simp only [listed, List.filter_map, List.filter_filter, Function.comp_def, Bool.and_comm]

/-- Whether a registry holds exactly the registrations of a roll. -/
structure Keeps (registry : Registry L) (roll : List (Enrolment L)) : Prop where
  single : (registry.shelves.map (·.skeleton)).Nodup
  entered : ∀ skeleton, registry.entries skeleton = listed roll skeleton
  distinct : (roll.map (·.id)).Nodup
  given : ∀ entry ∈ roll, entry.id < registry.nextId
  sized : registry.size = roll.length

namespace Keeps

variable {registry : Registry L} {roll : List (Enrolment L)}

theorem fresh : ({} : Registry L).Keeps [] where
  single := List.nodup_nil
  entered skeleton := by cases skeleton <;> rfl
  distinct := List.nodup_nil
  given _ impossible := nomatch impossible
  sized := rfl

theorem rearranged (keeps : registry.Keeps roll) {shelves : List (Shelf L)}
    (perm : registry.shelves.Perm shelves) : Keeps { registry with shelves } roll where
  single := (perm.map _).nodup_iff.mp keeps.single
  entered
    | none => keeps.entered none
    | some skeleton => (Shelf.on_perm keeps.single perm skeleton).trans (keeps.entered (some skeleton))
  distinct := keeps.distinct
  given := keeps.given
  sized := by
    rw [← keeps.sized, size, size, Shelf.total_perm perm]

theorem mem_iff (keeps : registry.Keeps roll) {entry : Registration L} {skeleton : Option UInt64} :
    entry ∈ registry.entries skeleton ↔ ⟨entry, skeleton⟩ ∈ roll := by
  rw [keeps.entered, listed, List.mem_map]
  constructor
  · rintro ⟨one, member, rfl⟩
    obtain ⟨among, same⟩ := List.mem_filter.mp member
    have matched : one.skeleton = skeleton := by simpa using same
    subst matched
    exact among
  · intro member
    exact ⟨⟨entry, skeleton⟩, List.mem_filter.mpr ⟨member, by simp⟩, rfl⟩

theorem added (keeps : registry.Keeps roll) {next : Registry L} {listener : L} {target : Option UInt64}
    (single : (next.shelves.map (·.skeleton)).Nodup)
    (entered : ∀ skeleton, next.entries skeleton =
      registry.entries skeleton ++ listed [⟨⟨registry.nextId, listener⟩, target⟩] skeleton)
    (counted : next.nextId = registry.nextId + 1) (larger : next.size = registry.size + 1) :
    next.Keeps (roll ++ [⟨⟨registry.nextId, listener⟩, target⟩]) where
  single := single
  entered skeleton := by rw [entered, keeps.entered, listed_append]
  distinct := by
    rw [List.map_append, List.nodup_append]
    refine ⟨keeps.distinct, List.nodup_cons.mpr ⟨List.not_mem_nil, List.nodup_nil⟩, ?_⟩
    intro id member other new same
    obtain ⟨entry, among, rfl⟩ := List.mem_map.mp member
    have below := keeps.given entry among
    have fresh : other = registry.nextId := List.mem_singleton.mp new
    omega
  given entry member := by
    rcases List.mem_append.mp member with among | new
    · have below := keeps.given entry among
      omega
    · rw [List.mem_singleton.mp new, counted]
      exact Nat.lt_succ_self _
  sized := by rw [larger, keeps.sized, List.length_append, List.length_singleton]

theorem enrol (keeps : registry.Keeps roll) (skeleton : Skeleton) (listener : L) :
    (add.enrol registry skeleton listener).2.Keeps
      (roll ++ [⟨⟨registry.nextId, listener⟩, some skeleton.id⟩]) := by
  refine keeps.added (Shelf.nodup_put _ _ keeps.single) (fun target => ?_) rfl ?_
  · cases target with
    | none => exact (List.append_nil _).symm
    | some key =>
      refine (Shelf.on_put _ _ key).trans ?_
      by_cases same : skeleton.id = key <;> simp [listed, entries, same]
  · rw [size, size, Nat.add_assoc]
    exact congrArg (registry.general.length + ·) (Shelf.total_put _ _)

theorem addGeneral (keeps : registry.Keeps roll) (listener : L) :
    (registry.addGeneral listener).2.Keeps (roll ++ [⟨⟨registry.nextId, listener⟩, none⟩]) := by
  refine keeps.added keeps.single (fun target => ?_) rfl ?_
  · cases target with
    | none => rfl
    | some key => exact (List.append_nil _).symm
  · simp only [size, Registry.addGeneral, List.length_append, List.length_singleton]
    omega

theorem unique (keeps : registry.Keeps roll) {entry other : Registration L} {skeleton target : Option UInt64}
    (here : entry ∈ registry.entries skeleton) (there : other ∈ registry.entries target)
    (same : entry.id = other.id) : skeleton = target := by
  have apart := List.inj_on_of_nodup_map keeps.distinct (keeps.mem_iff.mp here) (keeps.mem_iff.mp there) same
  exact congrArg Enrolment.skeleton apart

theorem distinct_entries (keeps : registry.Keeps roll) (skeleton : Option UInt64) :
    ((registry.entries skeleton).map (·.id)).Nodup := by
  rw [keeps.entered, listed, List.map_map]
  exact keeps.distinct.sublist (List.filter_sublist.map _)

theorem mem_ids_iff (keeps : registry.Keeps roll) {id : Nat} :
    id ∈ roll.map (·.id) ↔ ∃ skeleton, ∃ entry ∈ registry.entries skeleton, entry.id = id := by
  rw [List.mem_map]
  constructor
  · rintro ⟨⟨entry, skeleton⟩, member, same⟩
    exact ⟨skeleton, entry, keeps.mem_iff.mpr member, same⟩
  · rintro ⟨skeleton, entry, member, same⟩
    exact ⟨⟨entry, skeleton⟩, keeps.mem_iff.mp member, same⟩

theorem removed (keeps : registry.Keeps roll) {next : Registry L} {id : Nat} {target : Option UInt64}
    (held : ∃ entry ∈ registry.entries target, entry.id = id)
    (single : (next.shelves.map (·.skeleton)).Nodup)
    (shorter : next.entries target = (registry.entries target).eraseP (·.id = id))
    (others : ∀ skeleton, skeleton ≠ target → next.entries skeleton = registry.entries skeleton)
    (counted : next.nextId = registry.nextId) (smaller : next.size + 1 = registry.size) :
    next.Keeps (roll.filter fun entry : Enrolment L => entry.id ≠ id) where
  single := single
  entered skeleton := by
    rw [listed_without, ← keeps.entered]
    by_cases same : skeleton = target
    · subst same
      rw [shorter]
      exact eraseP_eq_filter (fun entry : Registration L => entry.id) (keeps.distinct_entries skeleton) id
    · rw [others skeleton same]
      apply (List.filter_eq_self.mpr ?_).symm
      intro entry member
      obtain ⟨one, among, numbered⟩ := held
      have differs : entry.id ≠ id := fun equal =>
        same (keeps.unique member among (equal.trans numbered.symm))
      simpa using differs
  distinct := keeps.distinct.sublist ((List.filter_sublist (l := roll)).map _)
  given entry member := by
    rw [counted]
    exact keeps.given entry (List.mem_of_mem_filter member)
  sized := by
    obtain ⟨entry, member, same⟩ := held
    have listed : ∃ one ∈ roll, one.id = id := ⟨_, keeps.mem_iff.mp member, same⟩
    have fewer := length_filter_add_one (fun one : Enrolment L => one.id) keeps.distinct listed
    have sized := keeps.sized
    omega

theorem remove_cases (keeps : registry.Keeps roll) (id : Nat) :
    (id ∉ roll.map (·.id) ∧ registry.remove id = (false, registry)) ∨
      (id ∈ roll.map (·.id) ∧ ∃ next, registry.remove id = (true, next) ∧
        next.Keeps (roll.filter (·.id ≠ id)) ∧ next.nextId = registry.nextId) := by
  -- Numbers are shared by both tables, so one table that has the number is the only one.
  by_cases general : registry.general.any (·.id = id)
  · have held : ∃ entry ∈ registry.entries none, entry.id = id := by simpa [entries] using general
    refine .inr ⟨keeps.mem_ids_iff.mpr ⟨none, held⟩, _, if_pos general, ?_, rfl⟩
    refine keeps.removed held keeps.single rfl (fun skeleton other => ?_) rfl ?_
    · cases skeleton with
      | none => exact absurd rfl other
      | some key => rfl
    · obtain ⟨entry, member, same⟩ := held
      have shorter := List.length_eraseP_of_mem (p := fun entry => entry.id = id) member (by simpa using same)
      have filled := List.length_pos_of_mem member
      simp only [size, entries] at shorter filled ⊢
      omega
  · rcases Shelf.take?_cases id registry.shelves with ⟨none, free⟩ | ⟨before, shelf, after, split, held, taken⟩
    · have left : registry.remove id = (false, registry) := by
        simp only [remove, general, Bool.false_eq_true, if_false, none]
      refine .inl ⟨fun member => ?_, left⟩
      obtain ⟨skeleton, entry, among, same⟩ := keeps.mem_ids_iff.mp member
      cases skeleton with
      | none => exact general (List.any_eq_true.mpr ⟨entry, among, by simpa using same⟩)
      | some key =>
        obtain ⟨shelf, standing, _, holds⟩ := Shelf.mem_on among
        exact free shelf standing entry holds same
    · have standing : shelf ∈ registry.shelves := by
        rw [split]
        exact List.mem_append_right before (List.mem_cons_self ..)
      have single := keeps.single
      have shelved : registry.entries (some shelf.skeleton) = shelf.entries := Shelf.on_of_mem single standing
      have removed : registry.remove id = (true, { registry with
          shelves := before ++ { shelf with entries := shelf.entries.eraseP (·.id = id) } :: after }) := by
        simp only [remove, general, Bool.false_eq_true, if_false, taken]
      have registered : ∃ entry ∈ registry.entries (some shelf.skeleton), entry.id = id := by
        rw [shelved]
        exact held
      refine .inr ⟨keeps.mem_ids_iff.mpr ⟨some shelf.skeleton, registered⟩, _, removed, ?_, rfl⟩
      rw [split] at single
      refine keeps.removed registered ?_ ?_ (fun skeleton other => ?_) rfl ?_
      · simpa using single
      · rw [shelved]
        exact (Shelf.on_replaced single _ _).trans (if_pos rfl)
      · cases skeleton with
        | none => rfl
        | some key =>
          have apart : shelf.skeleton ≠ key := fun same => other (congrArg some same.symm)
          refine (Shelf.on_replaced single _ key).trans ?_
          rw [if_neg apart, ← split]
          rfl
      · obtain ⟨entry, member, same⟩ := held
        have shorter := List.length_eraseP_of_mem (p := fun entry => entry.id = id) member (by simpa using same)
        have filled := List.length_pos_of_mem member
        simp only [size, split, Shelf.total_append, Shelf.total]
        omega

end Keeps

def audience (roll : List (Enrolment L)) (event : Event) : List L :=
  let attached := match event.trace.innermost? with
    | none => []
    | some frame => (listed roll (some frame.skeleton)).map (·.listener)
  attached ++ (listed roll none).map (·.listener)

theorem attachedTo_eq (registry : Registry L) (skeleton : UInt64) :
    registry.attachedTo skeleton = (registry.entries (some skeleton)).map (·.listener) := by
  show _ = (Shelf.on skeleton registry.shelves).map (·.listener)
  unfold attachedTo Shelf.on
  cases registry.shelves.find? (·.skeleton = skeleton) <;> rfl

theorem Keeps.targets {registry : Registry L} {roll : List (Enrolment L)} (keeps : registry.Keeps roll)
    (event : Event) : registry.targets event = audience roll event := by
  have general : registry.general = listed roll none := keeps.entered none
  unfold Registry.targets audience
  rw [general]
  cases event.trace.innermost? with
  | none => rfl
  | some frame =>
    have attached := registry.attachedTo_eq frame.skeleton
    rw [keeps.entered] at attached
    exact congrArg (· ++ _) attached

theorem add_cases (registry : Registry L) (skeleton : Skeleton) (declared : Option Kind) (listener : L) :
    (∃ kind, declared = some kind ∧ kind ≠ skeleton.kind ∧
      registry.add skeleton declared listener = .error ⟨kind, skeleton.kind⟩) ∨
    ((∀ kind, declared = some kind → kind = skeleton.kind) ∧
      registry.add skeleton declared listener = .ok (add.enrol registry skeleton listener)) := by
  cases declared with
  | none => exact .inr ⟨nofun, rfl⟩
  | some kind =>
    by_cases same : kind = skeleton.kind
    · refine .inr ⟨fun other equal => Option.some.inj equal ▸ same, ?_⟩
      simp only [add, same, if_true]
    · refine .inl ⟨kind, rfl, same, ?_⟩
      simp only [add, same, if_false]

theorem Keeps.respond_cases {registry : Registry L} {roll : List (Enrolment L)} (keeps : registry.Keeps roll)
    (call : Call L) :
    (∃ entry : Enrolment L, ∃ next, entry.id = registry.nextId ∧
      registry.respond call = (.added registry.nextId, next) ∧
      enter roll (call, .added registry.nextId) = roll ++ [entry] ∧ next.Keeps (roll ++ [entry]) ∧
      next.nextId = registry.nextId + 1) ∨
    (∃ id next, call = .remove id ∧ id ∈ roll.map (·.id) ∧ registry.respond call = (.removed true, next) ∧
      next.Keeps (roll.filter (·.id ≠ id)) ∧ next.nextId = registry.nextId) ∨
    (∃ reply, registry.respond call = (reply, registry) ∧ (∀ id, reply ≠ .added id) ∧ reply ≠ .removed true ∧
      enter roll (call, reply) = roll) := by
  cases call with
  | add skeleton declared listener =>
    rcases registry.add_cases skeleton declared listener with ⟨kind, _, _, refused⟩ | ⟨_, accepted⟩
    · refine .inr (.inr ⟨.refused ⟨kind, skeleton.kind⟩, ?_, nofun, nofun, rfl⟩)
      simp only [respond, refused]
    · refine .inl ⟨_, _, rfl, ?_, rfl, keeps.enrol skeleton listener, rfl⟩
      simp only [respond, accepted]
      rfl
  | addGeneral listener => exact .inl ⟨_, _, rfl, rfl, rfl, keeps.addGeneral listener, rfl⟩
  | remove id =>
    rcases keeps.remove_cases id with ⟨_, failed⟩ | ⟨member, next, removed, kept, same⟩
    · refine .inr (.inr ⟨.removed false, ?_, nofun, nofun, rfl⟩)
      simp only [respond, failed]
    · refine .inr (.inl ⟨id, next, rfl, member, ?_, kept, same⟩)
      simp only [respond, removed]
  | size => exact .inr (.inr ⟨.sized registry.size, rfl, nofun, nofun, rfl⟩)

structure Follows (history : History L) (registry : Registry L) : Prop where
  keeps : registry.Keeps (roll history)
  next : registry.nextId = (numbers history).length + 1
  numbered : numbers history = List.range' 1 (numbers history).length
  balanced : (roll history).length + removals history = (numbers history).length
  inForce : ∀ id, InForce history id ↔ id ∈ (roll history).map (·.id)

namespace Follows

variable {history : History L} {registry next : Registry L} {call : Call L}

theorem added (follows : Follows history registry) {entry : Enrolment L} (fresh : entry.id = registry.nextId)
    (entered : enter (roll history) (call, .added registry.nextId) = roll history ++ [entry])
    (kept : next.Keeps (roll history ++ [entry])) (counted : next.nextId = registry.nextId + 1) :
    Follows (history ++ [(call, .added registry.nextId)]) next := by
  have given : numbers [(call, Reply.added registry.nextId)] = [registry.nextId] := rfl
  have removed : removals [(call, Reply.added registry.nextId)] = 0 := rfl
  have balanced := follows.balanced
  refine ⟨?_, ?_, ?_, ?_, fun id => ?_⟩
  · rw [roll_snoc, entered]
    exact kept
  · rw [counted, numbers_append, given, List.length_append, List.length_singleton, follows.next]
  · rw [numbers_append, given, List.length_append, List.length_singleton, List.range'_concat, ← follows.numbered,
      follows.next, Nat.one_mul, Nat.add_comm 1]
  · rw [roll_snoc, entered, removals_append, removed, numbers_append, given, List.length_append,
      List.length_append, List.length_singleton, List.length_singleton]
    omega
  · rw [inForce_snoc, follows.inForce, roll_snoc, entered, List.map_append, List.mem_append, List.map_singleton,
      List.mem_singleton, fresh]
    constructor
    · rintro (given | ⟨held, _⟩)
      · exact .inr (Reply.added.inj given).symm
      · exact .inl held
    · rintro (held | rfl)
      · exact .inr ⟨held, nofun⟩
      · exact .inl rfl

theorem removed (follows : Follows history registry) {id : Nat} (member : id ∈ (roll history).map (·.id))
    (kept : next.Keeps ((roll history).filter (·.id ≠ id))) (counted : next.nextId = registry.nextId) :
    Follows (history ++ [(.remove id, .removed true)]) next := by
  have given : numbers [(Call.remove (L := L) id, Reply.removed true)] = [] := rfl
  have removed : removals [(Call.remove (L := L) id, Reply.removed true)] = 1 := rfl
  have entered : enter (roll history) (.remove id, .removed true) = (roll history).filter (·.id ≠ id) := rfl
  have balanced := follows.balanced
  refine ⟨?_, ?_, ?_, ?_, fun other => ?_⟩
  · rw [roll_snoc, entered]
    exact kept
  · rw [counted, follows.next, numbers_append, given, List.append_nil]
  · rw [numbers_append, given, List.append_nil]
    exact follows.numbered
  · have fewer := length_filter_add_one (fun one : Enrolment L => one.id) follows.keeps.distinct
      (List.mem_map.mp member)
    rw [roll_snoc, entered, removals_append, removed, numbers_append, given, List.append_nil]
    omega
  · rw [inForce_snoc, follows.inForce, roll_snoc, entered]
    simp only [List.mem_map, List.mem_filter, reduceCtorEq, false_or]
    constructor
    · rintro ⟨⟨one, held, same⟩, kept⟩
      refine ⟨one, ⟨held, ?_⟩, same⟩
      have differs : one.id ≠ id := fun equal => kept (by rw [← same, equal])
      simpa using differs
    · rintro ⟨one, ⟨held, differs⟩, same⟩
      refine ⟨⟨one, held, same⟩, fun equal => ?_⟩
      have equal : id = other := by simpa using equal
      have differs : one.id ≠ id := by simpa using differs
      exact differs (same.trans equal.symm)

theorem unchanged (follows : Follows history registry) {reply : Reply} (unnumbered : ∀ id, reply ≠ .added id)
    (unremoved : reply ≠ .removed true) (same : enter (roll history) (call, reply) = roll history) :
    Follows (history ++ [(call, reply)]) registry := by
  have given : numbers [(call, reply)] = [] := by
    cases reply with
    | added id => exact absurd rfl (unnumbered id)
    | _ => rfl
  have removed : removals [(call, reply)] = 0 := by simp [removals, unremoved]
  refine ⟨?_, ?_, ?_, ?_, fun id => ?_⟩
  · rw [roll_snoc, same]
    exact follows.keeps
  · rw [follows.next, numbers_append, given, List.append_nil]
  · rw [numbers_append, given, List.append_nil]
    exact follows.numbered
  · rw [roll_snoc, same, removals_append, removed, numbers_append, given, List.append_nil]
    exact follows.balanced
  · rw [inForce_snoc, follows.inForce, roll_snoc, same]
    constructor
    · rintro (given | ⟨held, _⟩)
      · exact absurd given (unnumbered id)
      · exact held
    · intro held
      exact .inr ⟨held, fun equal => unremoved (congrArg Prod.snd equal)⟩

theorem called (follows : Follows history registry) (call : Call L) :
    Follows (history ++ [(call, (registry.respond call).1)]) (registry.respond call).2 := by
  rcases follows.keeps.respond_cases call with
    ⟨entry, after, fresh, answered, entered, kept, counted⟩ |
    ⟨id, after, rfl, member, answered, kept, counted⟩ | ⟨reply, answered, unnumbered, unremoved, same⟩
  · rw [answered]
    exact follows.added fresh entered kept counted
  · rw [answered]
    exact follows.removed member kept counted
  · rw [answered]
    exact follows.unchanged unnumbered unremoved same

end Follows

theorem Reaches.follows {history : History L} {registry : Registry L} (reaches : Reaches history registry) :
    Follows history registry := by
  induction reaches with
  | fresh =>
    refine ⟨Keeps.fresh, rfl, rfl, rfl, fun id => ⟨?_, fun impossible => nomatch impossible⟩⟩
    rintro ⟨before, call, after, empty, _⟩
    exact absurd empty (by simp)
  | called call _ ih => exact ih.called call
  | rearranged _ perm ih => exact { ih with keeps := ih.keeps.rearranged perm }

theorem Reaches.deliver {σ : Type} (held : σ → Registry L) (state : σ) {history : History L}
    (reaches : Reaches history (held state)) (call : Event → σ → L → Option σ) (event : Event) :
    deliver held call event state = (audience (roll history) event).foldlM (call event) state := by
  rw [Skeletons.deliver, reaches.follows.keeps.targets]

theorem Keeps.remove_one {registry next : Registry L} {roll : List (Enrolment L)} {id : Nat}
    (keeps : registry.Keeps roll) (member : id ∈ roll.map (·.id))
    (kept : next.Keeps (roll.filter (·.id ≠ id))) :
    ∃ target before listener after, registry.entries target = before ++ ⟨id, listener⟩ :: after ∧
      next.entries target = before ++ after ∧
      ∀ other, other ≠ target → next.entries other = registry.entries other := by
  have filtered (target : Option UInt64) :
      next.entries target = (registry.entries target).filter (·.id ≠ id) := by
    rw [kept.entered, listed_without, ← keeps.entered]
  obtain ⟨target, ⟨number, listener⟩, held, same⟩ := keeps.mem_ids_iff.mp member
  obtain rfl : number = id := same
  -- A list whose numbers are distinct loses one entry, and the entries of any other skeleton lose none.
  obtain ⟨before, after, split⟩ := List.append_of_mem held
  refine ⟨target, before, listener, after, split, ?_, fun other differs => ?_⟩
  · have distinct := keeps.distinct_entries target
    have erased := eraseP_eq_filter (fun entry : Registration L => entry.id) distinct number
    rw [filtered, ← erased, split]
    rw [split, List.map_append, List.nodup_append] at distinct
    have passed : ∀ entry ∈ before, ¬ decide (entry.id = number) = true := by
      intro entry early
      have apart := distinct.2.2 _ (List.mem_map_of_mem early) number (List.mem_cons_self ..)
      simpa using apart
    rw [List.eraseP_append_right _ passed]
    simp
  · rw [filtered]
    apply List.filter_eq_self.mpr
    intro entry among
    have apart : entry.id ≠ number := fun equal => differs (keeps.unique among held equal)
    simpa using apart

/-- A registry is the set of the registrations that were made and not taken back. -/
theorem Reaches.refines {history : History L} {registry : Registry L} (reaches : Reaches history registry) :
    (∀ skeleton, registry.entries skeleton = listed (roll history) skeleton) ∧
    ((numbers history).Nodup ∧
      ((numbers history).length < UInt64.size → ((numbers history).map UInt64.ofNat).Nodup)) ∧
    (∀ skeleton declared listener,
      ((∃ error, registry.add skeleton declared listener = .error error) ↔
        ∃ kind, declared = some kind ∧ kind ≠ skeleton.kind) ∧
      ((∃ kind, declared = some kind ∧ kind ≠ skeleton.kind) →
        (registry.respond (.add skeleton declared listener)).2 = registry)) ∧
    (∀ id, ((registry.remove id).1 = true ↔ InForce history id) ∧
      (¬ InForce history id → (registry.remove id).2 = registry) ∧
      (InForce history id → ∃ target before listener after,
        registry.entries target = before ++ ⟨id, listener⟩ :: after ∧
        (registry.remove id).2.entries target = before ++ after ∧
        ∀ other, other ≠ target → (registry.remove id).2.entries other = registry.entries other)) ∧
    registry.size + removals history = (numbers history).length ∧
    (registry.isEmpty = true ↔ removals history = (numbers history).length) := by
  obtain ⟨keeps, next, numbered, balanced, inForce⟩ := reaches.follows
  have counted : registry.size + removals history = (numbers history).length := by
    rw [keeps.sized]
    exact balanced
  have distinct : (numbers history).Nodup := by
    rw [numbered]
    exact List.nodup_range'
  refine ⟨keeps.entered, ⟨distinct, fun few => ?_⟩, fun skeleton declared listener => ?_, fun id => ?_,
    counted, ?_⟩
  · have small (id : Nat) (given : id ∈ numbers history) : id < UInt64.size := by
      rw [numbered, List.mem_range'_1] at given
      omega
    refine distinct.map_on fun first one second other same => ?_
    have alike := congrArg UInt64.toNat same
    rw [UInt64.toNat_ofNat_of_lt' (small first one), UInt64.toNat_ofNat_of_lt' (small second other)] at alike
    exact alike
  · rcases registry.add_cases skeleton declared listener with ⟨kind, rfl, differs, refused⟩ | ⟨fits, accepted⟩
    · exact ⟨⟨fun _ => ⟨kind, rfl, differs⟩, fun _ => ⟨_, refused⟩⟩, fun _ => by simp only [respond, refused]⟩
    · have fitting : ¬ ∃ kind, declared = some kind ∧ kind ≠ skeleton.kind :=
        fun ⟨kind, declares, differs⟩ => differs (fits kind declares)
      refine ⟨⟨fun ⟨error, refused⟩ => ?_, fun differs => absurd differs fitting⟩,
        fun differs => absurd differs fitting⟩
      rw [accepted] at refused
      cases refused
  · rw [inForce]
    rcases keeps.remove_cases id with ⟨absent, failed⟩ | ⟨member, left, removed, kept, _⟩
    · rw [failed]
      exact ⟨⟨nofun, fun member => absurd member absent⟩, fun _ => rfl, fun member => absurd member absent⟩
    · rw [removed]
      exact ⟨⟨fun _ => member, fun _ => rfl⟩, fun absent => absurd member absent,
        fun _ => keeps.remove_one member kept⟩
  · rw [isEmpty, beq_iff_eq]
    omega

def serve (calls : List (Call L)) : History L × Registry L :=
  calls.foldl (fun (history, registry) call =>
    (history ++ [(call, (registry.respond call).1)], (registry.respond call).2)) ([], {})

theorem reaches_serve (calls : List (Call L)) : Reaches (serve calls).1 (serve calls).2 := by
  have from_any (history : History L) (registry : Registry L) (reaches : Reaches history registry) :
      let served := calls.foldl (fun (history, registry) call =>
        (history ++ [(call, (registry.respond call).1)], (registry.respond call).2)) (history, registry)
      Reaches served.1 served.2 := by
    induction calls generalizing history registry with
    | nil => exact reaches
    | cons call rest ih => exact ih _ _ (reaches.called call)
  exact from_any [] {} .fresh

theorem refines_mixed :
    let keep : Skeleton := .seq 4 ⟨"keep", .ok⟩
    let served := serve [.add keep (some .seq) "first", .addGeneral "all", .add keep (some .map) "wrong",
      .add keep none "second", .remove 1, .remove 1]
    served.1.map Prod.snd =
        [.added 1, .added 2, .refused ⟨.map, .seq⟩, .added 3, .removed true, .removed false] ∧
      (served.2.entries (some 4)).map (fun entry => (entry.id, entry.listener)) = [(3, "second")] ∧
      served.2.size + 1 = 3 ∧ ((served.2.remove 1).1 = true ↔ InForce served.1 1) := by
  intro keep served
  have refined := (reaches_serve (L := String) [.add keep (some .seq) "first", .addGeneral "all",
    .add keep (some .map) "wrong", .add keep none "second", .remove 1, .remove 1]).refines
  refine ⟨rfl, ?_, refined.2.2.2.2.1, (refined.2.2.2.1 1).1⟩
  rw [refined.1]
  rfl

end Registry

end Skeletons
