import Skeletons.Skeleton

namespace Skeletons.Skeleton

mutual

def nodes : Skeleton → List Skeleton
  | .seq id execute => [.seq id execute]
  | .pipe id first second => .pipe id first second :: (nodes first ++ nodes second)
  | .ifElse id condition whenTrue whenFalse =>
    .ifElse id condition whenTrue whenFalse :: (nodes whenTrue ++ nodes whenFalse)
  | .whileLoop id condition body => .whileLoop id condition body :: nodes body
  | .forLoop id times body => .forLoop id times body :: nodes body
  | .map id split body merge => .map id split body merge :: nodes body
  | .fork id split branches merge => .fork id split branches merge :: nodesOf branches
  | .divide id condition split solve merge => .divide id condition split solve merge :: nodes solve

def nodesOf : List Skeleton → List Skeleton
  | [] => []
  | branch :: rest => nodes branch ++ nodesOf rest

end

theorem nodesOf_eq_flatMap (branches : List Skeleton) : nodesOf branches = branches.flatMap nodes := by
  induction branches with
  | nil => rfl
  | cons branch rest ih => simp [nodesOf, ih]

theorem nodes_eq (skeleton : Skeleton) : skeleton.nodes = skeleton :: skeleton.children.flatMap nodes := by
  cases skeleton with
  | fork id split branches merge => simp [nodes, children, nodesOf_eq_flatMap]
  | _ => simp [nodes, children]

theorem mem_nodes_self (skeleton : Skeleton) : skeleton ∈ skeleton.nodes := by
  rw [nodes_eq]
  exact List.mem_cons_self ..

theorem mem_nodes_of_part {skeleton part node : Skeleton} (member : part ∈ skeleton.children)
    (held : node ∈ part.nodes) : node ∈ skeleton.nodes := by
  rw [nodes_eq]
  exact List.mem_cons_of_mem _ (List.mem_flatMap.mpr ⟨part, member, held⟩)

theorem sizeOf_part {skeleton part : Skeleton} (member : part ∈ skeleton.children) :
    sizeOf part < sizeOf skeleton := by
  cases skeleton with
  | fork id split branches merge =>
    have within : sizeOf part < sizeOf branches := List.sizeOf_lt_of_mem member
    simp only [fork.sizeOf_spec]
    omega
  | seq => cases member
  | pipe | ifElse =>
    simp only [children, List.mem_cons, List.not_mem_nil, or_false] at member
    rcases member with rfl | rfl <;> simp only [pipe.sizeOf_spec, ifElse.sizeOf_spec] <;> omega
  | _ =>
    rw [List.mem_singleton.mp member]
    simp only [whileLoop.sizeOf_spec, forLoop.sizeOf_spec, map.sizeOf_spec, divide.sizeOf_spec]
    omega

theorem mem_nodes_trans {root middle node : Skeleton} (above : middle ∈ root.nodes) (below : node ∈ middle.nodes) :
    node ∈ root.nodes := by
  rw [nodes_eq] at above
  rcases List.mem_cons.mp above with rfl | among
  · exact below
  · obtain ⟨part, member, held⟩ := List.mem_flatMap.mp among
    exact mem_nodes_of_part member (mem_nodes_trans held below)
termination_by sizeOf root
decreasing_by exact sizeOf_part member

end Skeletons.Skeleton
