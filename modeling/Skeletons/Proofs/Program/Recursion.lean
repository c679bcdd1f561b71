import Mathlib.Data.List.Nodup
import Skeletons.Proofs.Process.Recursion
import Skeletons.Proofs.Program.Branches
import Skeletons.Proofs.Skeleton.Inside

namespace Skeletons

open Recursion

variable {id : UInt64} {condition : Condition} {split : Split} {input : Value} {events : List Event}

/-- What some events report of a division on a value: at which paths it recurses, which of these recursions
    divide, and what each reports with those below it. -/
structure Recursive (id : UInt64) (condition : Condition) (split : Split) (input : Value) (events : List Event)
    (paths : List RecursionPath) (divides : RecursionPath → Bool) (told : RecursionPath → List Event) : Prop where
  whole : told [] = events
  first : paths.head? = some []
  sorted : paths.Pairwise (· < ·)
  distinct : (paths.map RecursionPath.payload).Nodup
  conditions : events.filter (Event.isOf id .before .condition) = paths.map (tell id .before .condition)
  merges : (events.filter (Event.isOf id .before .merge)).Perm ((paths.filter divides).map (tell id .before .merge))
  solves : events.filter (Event.isOf id .before .nested) =
    (paths.filter fun path => !divides path).map (tell id .before .nested)
  divided : ∀ path ∈ paths, divides path = true → ∃ given parts,
    Recurs condition split input path given ∧ condition.call given = .ok true ∧ split.call given = .ok parts ∧
    (∀ index, path.child index ∈ paths ↔ index.toNat < parts.length) ∧
    told path = tell id .before .condition path :: decision id path true
      :: ((List.range parts.length).flatMap fun index => told (path.child (UInt64.ofNat index)))
      ++ [tell id .before .merge path, tell id .after .merge path]
  solved : ∀ path ∈ paths, divides path = false → ∃ given inside,
    Recurs condition split input path given ∧ condition.call given = .ok false ∧
    (∀ index, path.child index ∉ paths) ∧
    told path = tell id .before .condition path :: decision id path false :: tell id .before .nested path :: inside
      ++ [tell id .after .nested path] ∧
    ∀ event ∈ inside, event.trace[0]? = some (Process.divisionFrame id 0 path) ∧
      event.trace.innermost?.map (·.skeleton) ≠ some id

namespace Recursion

variable {tree : Recursion}

def dividesAt (tree : Recursion) (path : RecursionPath) : Bool := ((tree.recursions []).lookup path).any divides

def logAt (id : UInt64) (tree : Recursion) (path : RecursionPath) : List Event :=
  ((tree.recursions []).lookup path).elim [] (log id path)

namespace Follows

theorem dividesAt_eq {entry : RecursionPath × Recursion} (follows : Follows id condition split [] tree)
    (member : entry ∈ tree.recursions []) : tree.dividesAt entry.1 = entry.2.divides := by
  rw [dividesAt, follows.lookup_eq member, Option.any_some]

theorem logAt_eq {entry : RecursionPath × Recursion} (follows : Follows id condition split [] tree)
    (member : entry ∈ tree.recursions []) : logAt id tree entry.1 = entry.2.log id entry.1 := by
  rw [logAt, follows.lookup_eq member, Option.elim_some]

theorem filter_paths (follows : Follows id condition split [] tree) (wanted : Bool → Bool)
    (tell : RecursionPath → Event) :
    (((tree.recursions []).map (·.1)).filter fun path => wanted (tree.dividesAt path)).map tell =
      ((tree.recursions []).filter fun entry => wanted entry.2.divides).map fun entry => tell entry.1 := by
  rw [List.filter_map, List.map_map]
  congr 1
  apply List.filter_congr
  intro entry member
  rw [Function.comp, follows.dividesAt_eq member]

theorem child_mem_iff {path : RecursionPath} {tree part : Recursion} (follows : Follows id condition split [] tree)
    (member : (path, part) ∈ tree.recursions []) (index : UInt64) :
    path.child index ∈ (tree.recursions []).map (·.1) ↔
      ∃ given parts, part = .divided given parts ∧ index.toNat < parts.length := by
  constructor
  · intro among
    obtain ⟨entry, below, same⟩ := List.mem_map.mp among
    rcases follows.eq_or_part below with rfl | ⟨above, given, parts, around, place, other, found, rfl⟩
    · exact absurd same.symm (List.append_ne_nil_of_right_ne_nil path (List.cons_ne_nil index []))
    · obtain ⟨rfl, numbered⟩ := List.append_inj' same rfl
      obtain ⟨rfl, -⟩ := List.cons.inj numbered
      have here := follows.lookup_eq member
      have there := follows.lookup_eq around
      refine ⟨given, parts, Option.some.inj (here.symm.trans there), ?_⟩
      rw [UInt64.toNat_ofNat']
      exact (Nat.mod_le _ _).trans_lt (List.getElem?_eq_some_iff.mp found).1
  · intro among
    obtain ⟨given, parts, rfl, bound⟩ := among
    have below := follows.part_mem member (List.getElem?_eq_getElem bound)
    rw [UInt64.ofNat_toNat] at below
    exact List.mem_map_of_mem below

theorem logs_at {path : RecursionPath} {given : Value} {parts : List Recursion}
    (follows : Follows id condition split [] tree) (member : (path, .divided given parts) ∈ tree.recursions []) :
    (parts.zipIdx.flatMap fun entry => entry.1.log id (path.child (UInt64.ofNat entry.2))) =
      (List.range parts.length).flatMap fun index => logAt id tree (path.child (UInt64.ofNat index)) := by
  rw [List.range_eq_range', ← List.zipIdx_map_snd, List.flatMap_map]
  apply List.flatMap_congr
  intro entry among
  exact (follows.logAt_eq (follows.part_mem member (List.mem_zipIdx_iff_getElem?.mp among))).symm

theorem recursive (follows : Follows id condition split [] tree) :
    Recursive id condition split tree.given (tree.log id []) ((tree.recursions []).map (·.1)) tree.dividesAt
      (logAt id tree) where
  whole := follows.logAt_eq (self_mem_recursions [] tree)
  first := by
    cases tree with
    | solved given inside => rfl
    | divided given parts => rfl
  sorted := List.pairwise_map.mpr follows.sorted
  distinct := by
    have apart : ((tree.recursions []).map (·.1)).Nodup := by
      refine List.Pairwise.imp ?_ (List.pairwise_map.mpr follows.sorted)
      rintro path _ less rfl
      exact List.lt_irrefl path less
    refine apart.map_on fun first here second _ same => ?_
    obtain ⟨entry, member, rfl⟩ := List.mem_map.mp here
    obtain ⟨rest, known, small⟩ := follows.further entry member
    rw [List.nil_append] at known
    exact (RecursionPath.payload_inj_of_lt (known ▸ small) same.symm).symm
  conditions := by rw [follows.conditions, List.map_map]; rfl
  merges := by
    rw [follows.filter_paths (fun outcome => outcome)]
    exact follows.merges
  solves := by
    rw [follows.filter_paths not]
    exact follows.solves
  divided := by
    intro path among divides
    obtain ⟨⟨_, part⟩, member, rfl⟩ := List.mem_map.mp among
    obtain ⟨recurs, known⟩ := follows.reached .root _ member
    rw [follows.dividesAt_eq member] at divides
    cases known with
    | solved refused below other => cases divides
    | @divided _ given parts agreed cut few each =>
      refine ⟨given, parts.map Recursion.given, recurs, agreed, cut, fun index => ?_, ?_⟩
      · rw [follows.child_mem_iff member, List.length_map]
        constructor
        · intro among
          obtain ⟨_, _, same, bound⟩ := among
          cases same
          exact bound
        · exact fun bound => ⟨given, parts, rfl, bound⟩
      · rw [follows.logAt_eq member, log_divided, follows.logs_at member, List.length_map]
  solved := by
    intro path among divides
    obtain ⟨⟨_, part⟩, member, rfl⟩ := List.mem_map.mp among
    obtain ⟨recurs, known⟩ := follows.reached .root _ member
    rw [follows.dividesAt_eq member] at divides
    cases known with
    | divided agreed cut few each => cases divides
    | @solved _ given inside refused below other =>
      refine ⟨given, inside, recurs, refused, fun index within => ?_, follows.logAt_eq member,
        fun event within => ⟨below event within, other event within⟩⟩
      obtain ⟨_, _, same, -⟩ := (follows.child_mem_iff member index).mp within
      cases same

end Follows

end Recursion

namespace Program

/-- The recursions of a division that is a whole program form a tree, if no node of its solve has its
    identifier. -/
theorem recursion_tree (id : UInt64) (condition : Condition) (split : Split) (solve : Skeleton) (merge : Merge)
    (apart : ∀ node ∈ solve.nodes, node.id ≠ id) (limit budget : Nat) (input answer : Value) (events : List Event)
    (few : ∀ path given parts, Recurs condition split input path given → condition.call given = .ok true →
      split.call given = .ok parts → parts.length ≤ 2 ^ 53)
    (ran : (ofSkeleton (.divide id condition split solve merge)).instantiate.run limit budget input =
      some ⟨.ok answer, events⟩) :
    ∃ paths divides told, Recursive id condition split input events paths divides told := by
  have ended := ((run_events _ limit input).1 _ events).mp ⟨budget, ran⟩
  have solves : ∀ path value, (solve.behaviour limit ((Recursion.trace id path).nest solve.frame) value).Reports
      fun event => event.trace[0]? = some (Process.divisionFrame id 0 path) ∧
        event.trace.innermost?.map (·.skeleton) ≠ some id := by
    intro path value
    refine (Skeleton.reports_behaviour limit solve (Recursion.trace id path) 0 value).weaken fun event covers => ?_
    obtain ⟨rest, same⟩ := covers.start
    obtain ⟨node, among, innermost⟩ := covers.node
    refine ⟨by rw [← same]; rfl, ?_⟩
    rw [innermost]
    exact fun equal => apart node among (Option.some.inj equal)
  obtain ⟨tree, rfl, follows, rfl⟩ := Process.exists_recursion solves few .root ended
  exact ⟨_, _, _, follows.recursive⟩

theorem recursion_tree_listDivision :
    ∃ events, (ofSkeleton listDivision).instantiate.run 64 60 (.list [.list [], .null]) =
      some ⟨.ok (.list [.list [], .null]), events⟩ ∧
      ∃ paths divides told, Recursive 2 ⟨"is list", fun value => .ok value.asList?.isSome⟩ items
        (.list [.list [], .null]) events paths divides told := by
  have known : ∀ path given, Recurs ⟨"is list", fun value => .ok value.asList?.isSome⟩ items
      (.list [.list [], .null]) path given →
      given = .list [.list [], .null] ∨ given = .list [] ∨ given = .null := by
    intro path given recurs
    induction recurs with
    | root => exact .inl rfl
    | @part _ _ _ _ index above agreed cut found ih =>
      right
      rcases ih with rfl | rfl | rfl <;> cases cut
      · match index with
        | 0 => exact .inl (Option.some.inj found).symm
        | 1 => exact .inr (Option.some.inj found).symm
      · cases found
      · cases found
  refine ⟨_, rfl, recursion_tree 2 _ items (.seq 1 ⟨"keep", .ok⟩) collect ?_ 64 60 _ _ _ ?_ rfl⟩
  · simp [Skeleton.nodes, Skeleton.id]
  · intro path given parts recurs _ cut
    rcases known path given recurs with rfl | rfl | rfl <;> cases cut <;> decide

end Program

end Skeletons
