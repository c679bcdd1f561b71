import Skeletons.Proofs.Run.Divide
import Skeletons.Proofs.Skeleton.Compile

namespace Skeletons

namespace Skeleton

inductive Holds (root : Skeleton) : Skeleton → Prop where
  | self : Holds root root
  | child {parent part : Skeleton} : Holds root parent → part ∈ parent.children → Holds root part

def Names (root : Skeleton) (name : String) : Prop := ∃ node, root.Holds node ∧ name ∈ node.muscleNames

def Forks (root : Skeleton) (count : Nat) : Prop :=
  ∃ id split branches merge, root.Holds (.fork id split branches merge) ∧ branches.length = count

/-- The failures that the muscles of a tree and the depth limit account for. -/
inductive Admits (limit : Nat) (root : Skeleton) : Failure → Prop where
  | muscle {name : String} (text : String) : root.Names name → Admits limit root (.muscle name text)
  | arity {expected actual : Nat} :
    root.Forks expected → expected ≠ 1 → actual ≠ expected →
      Admits limit root (.configuration (.arityMismatch expected actual))
  | depth : Admits limit root (.configuration (.depthExceeded limit))

end Skeleton

def Value.Fits (listed : Bool) (value : Value) : Prop := listed = true → ∃ items, value = .list items

theorem Value.fits_false (value : Value) : value.Fits false := fun impossible => nomatch impossible

theorem Value.fits_list (listed : Bool) (items : List Value) : (Value.list items).Fits listed :=
  fun _ => ⟨items, rfl⟩

namespace Stack

/-- A stack that belongs to a tree, for a value that is a list if `listed` says so. A split only stands where a list
    is at hand, a merge only where results are. -/
inductive Sound (root : Skeleton) : Bool → Stack → Prop where
  | nil {listed : Bool} : Sound root listed []
  | seq {listed : Bool} {execute : Execute} {trace : Trace} {rest : Stack} :
    root.Names execute.name → Sound root false rest → Sound root listed (.seq execute trace :: rest)
  | parts {listed : Bool} {split : Split} {trace : Trace} {rest : Stack} :
    root.Names split.name → Sound root true rest → Sound root listed (.seq split.asExecute trace :: rest)
  | ifElse {listed : Bool} {condition : Condition} {whenTrue whenFalse : Stack} {trace : Trace}
      {rest : Stack} :
    root.Names condition.name → Sound root false whenTrue → Sound root false whenFalse →
      Sound root false rest → Sound root listed (.ifElse condition whenTrue whenFalse trace :: rest)
  | choice {listed outcome : Bool} {whenTrue whenFalse : Stack} {trace : Trace} {rest : Stack} :
    Sound root false whenTrue → Sound root false whenFalse → Sound root false rest →
      Sound root listed (.choice outcome whenTrue whenFalse trace :: rest)
  | split {templates : List Stack} {merge : Merge} {trace : Trace} {rest : Stack} :
    (∀ template ∈ templates, Sound root false template) →
      (templates.length ≠ 1 → root.Forks templates.length) → root.Names merge.name →
      Sound root false rest → Sound root true (.split templates merge trace none :: rest)
  | recursion {condition : Condition} {split : Split} {merge : Merge} {solve : Stack} {trace : Trace}
      {path : RecursionPath} {rest : Stack} :
    root.Names condition.name → root.Names split.name → root.Names merge.name → trace ≠ [] →
      Sound root false solve → Sound root false rest →
      Sound root true
        (.split [[.divide condition split merge solve trace path]] merge trace (some path) :: rest)
  | divide {listed : Bool} {condition : Condition} {split : Split} {merge : Merge} {solve : Stack}
      {trace : Trace} {path : RecursionPath} {rest : Stack} :
    root.Names condition.name → root.Names split.name → root.Names merge.name → trace ≠ [] →
      Sound root false solve → Sound root false rest →
      Sound root listed (.divide condition split merge solve trace path :: rest)
  | merge {merge : Merge} {trace : Trace} {rest : Stack} :
    root.Names merge.name → Sound root false rest → Sound root true (.merge merge trace :: rest)
  | signal {listed : Bool} {event : Event} {rest : Stack} :
    Sound root listed rest → Sound root listed (.signal event :: rest)
  | whileLoop {listed : Bool} {condition : Condition} {body : Stack} {trace : Trace} {iteration : UInt64}
      {rest : Stack} :
    root.Names condition.name → Sound root false body → Sound root false rest →
      Sound root listed (.whileLoop condition body trace iteration :: rest)
  | forLoop {listed : Bool} {times : UInt64} {body : Stack} {trace : Trace} {iteration : UInt64}
      {rest : Stack} :
    Sound root false body → Sound root false rest →
      Sound root listed (.forLoop times body trace iteration :: rest)

namespace Sound

variable {root : Skeleton}

theorem weaken {stack : Stack} (sound : Sound root false stack) (listed : Bool) : Sound root listed stack := by
  generalize unlisted : false = flag at sound
  induction sound with
  | nil => exact .nil
  | seq named below => exact .seq named below
  | parts named below => exact .parts named below
  | ifElse named whenTrue whenFalse below => exact .ifElse named whenTrue whenFalse below
  | choice whenTrue whenFalse below => exact .choice whenTrue whenFalse below
  | split => cases unlisted
  | recursion => cases unlisted
  | divide tested divided merged traced solve below => exact .divide tested divided merged traced solve below
  | merge => cases unlisted
  | signal _ ih => exact .signal (ih unlisted)
  | whileLoop named body below => exact .whileLoop named body below
  | forLoop body below => exact .forLoop body below

theorem append {listed : Bool} {first second : Stack} (upper : Sound root listed first)
    (lower : Sound root false second) : Sound root listed (first ++ second) := by
  induction upper with
  | nil => exact lower.weaken _
  | seq named _ ih => exact .seq named ih
  | parts named _ ih => exact .parts named ih
  | ifElse named whenTrue whenFalse _ _ _ ih => exact .ifElse named whenTrue whenFalse ih
  | choice whenTrue whenFalse _ _ _ ih => exact .choice whenTrue whenFalse ih
  | split templates counted named _ _ ih => exact .split templates counted named ih
  | recursion tested divided merged traced solve _ _ ih =>
    exact .recursion tested divided merged traced solve ih
  | divide tested divided merged traced solve _ _ ih => exact .divide tested divided merged traced solve ih
  | merge named _ ih => exact .merge named ih
  | signal _ ih => exact .signal ih
  | whileLoop named body _ _ ih => exact .whileLoop named body ih
  | forLoop body _ _ ih => exact .forLoop body ih

theorem retag (depth : Nat) (occurrence : UInt64) {listed : Bool} {stack : Stack}
    (sound : Sound root listed stack) : Sound root listed (Stack.retag depth occurrence stack) := by
  induction sound with
  | nil => exact .nil
  | seq named _ ih => exact .seq named ih
  | parts named _ ih => exact .parts named ih
  | ifElse named _ _ _ whenTrue whenFalse ih => exact .ifElse named whenTrue whenFalse ih
  | choice _ _ _ whenTrue whenFalse ih => exact .choice whenTrue whenFalse ih
  | @split templates _ _ _ _ counted named _ sound ih =>
    have same : (retagAll depth occurrence templates).length = templates.length := by
      rw [retagAll_eq_map, List.length_map]
    refine .split (fun template member => ?_) (fun several => ?_) named ih
    · rw [retagAll_eq_map] at member
      obtain ⟨original, among, rfl⟩ := List.mem_map.mp member
      exact sound original among
    · rw [same] at several ⊢
      exact counted several
  | recursion tested divided merged traced _ _ solve ih =>
    exact .recursion tested divided merged (Trace.retag_ne_nil depth occurrence traced) solve ih
  | divide tested divided merged traced _ _ solve ih =>
    exact .divide tested divided merged (Trace.retag_ne_nil depth occurrence traced) solve ih
  | merge named _ ih => exact .merge named ih
  | signal _ ih => exact .signal ih
  | whileLoop named _ _ body ih => exact .whileLoop named body ih
  | forLoop _ _ body ih => exact .forLoop body ih

theorem enclosed {stack : Stack} (sound : Sound root false stack) (before after : Event) (listed : Bool) :
    Sound root listed (.signal before :: stack ++ [.signal after]) :=
  .signal ((sound.append (.signal .nil)).weaken listed)

end Sound

end Stack

namespace Skeleton

open Stack (Sound)

mutual

theorem sound_compile {root : Skeleton} : ∀ {part : Skeleton} {trace : Trace},
    root.Holds part → trace ≠ [] → Sound root false (part.compile trace)
  | .seq _ _, _, held, _ => .seq ⟨_, held, List.mem_singleton_self _⟩ .nil
  | .pipe _ first second, trace, held, _ => by
    have upper := sound_compile (held.child (List.mem_cons_self ..)) (Trace.nest_ne_nil trace first.frame)
    have lower := sound_compile (held.child (List.mem_cons_of_mem _ (List.mem_singleton_self _)))
      (Trace.nest_ne_nil trace second.frame)
    rw [compile, List.append_assoc]
    exact .signal (upper.append (.signal (lower.enclosed _ _ false)))
  | .ifElse _ _ _ _, trace, held, _ =>
    .signal (.ifElse ⟨_, held, List.mem_singleton_self _⟩
      (sound_compile (held.child (List.mem_cons_self ..)) (Trace.nest_ne_nil trace _))
      (sound_compile (held.child (List.mem_cons_of_mem _ (List.mem_singleton_self _)))
        (Trace.nest_ne_nil trace _)) .nil)
  | .whileLoop _ _ _, trace, held, _ =>
    .signal (.whileLoop ⟨_, held, List.mem_singleton_self _⟩
      (sound_compile (held.child (List.mem_singleton_self _)) (Trace.nest_ne_nil trace _)) .nil)
  | .forLoop _ _ _, trace, held, _ =>
    .forLoop (sound_compile (held.child (List.mem_singleton_self _)) (Trace.nest_ne_nil trace _)) .nil
  | .map _ split body merge, trace, held, _ => by
    have part := sound_compile (held.child (List.mem_singleton_self _)) (Trace.nest_ne_nil trace body.frame)
    refine .parts ⟨_, held, List.mem_cons_self ..⟩ (.split (fun template member => ?_) ?_ ?_ .nil)
    · rw [List.mem_singleton.mp member]
      exact part
    · exact fun several => absurd rfl several
    · exact ⟨_, held, List.mem_cons_of_mem _ (List.mem_singleton_self _)⟩
  | .fork _ split branches merge, trace, held, _ => by
    refine .parts ⟨_, held, List.mem_cons_self ..⟩ (.split ?_ (fun _ => ?_) ?_ .nil)
    · exact sound_compileAll fun branch member => held.child member
    · exact ⟨_, split, branches, merge, held, (length_compileAll trace branches).symm⟩
    · exact ⟨_, held, List.mem_cons_of_mem _ (List.mem_singleton_self _)⟩
  | .divide _ condition split solve merge, trace, held, traced => by
    refine .signal (.divide ?_ ?_ ?_ traced ?_ .nil)
    · exact ⟨_, held, by simp [muscleNames]⟩
    · exact ⟨_, held, by simp [muscleNames]⟩
    · exact ⟨_, held, by simp [muscleNames]⟩
    · exact sound_compile (held.child (List.mem_singleton_self _)) (Trace.nest_ne_nil trace _)

theorem sound_compileAll {root : Skeleton} {trace : Trace} : ∀ {branches : List Skeleton},
    (∀ branch ∈ branches, root.Holds branch) →
      ∀ template ∈ compileAll trace branches, Sound root false template
  | [], _, _, member => nomatch member
  | branch :: rest, held, template, member => by
    rcases List.mem_cons.mp member with rfl | among
    · exact sound_compile (held branch (List.mem_cons_self ..)) (Trace.nest_ne_nil trace _)
    · exact sound_compileAll (fun other below => held other (List.mem_cons_of_mem _ below)) template among

end

end Skeleton

end Skeletons
