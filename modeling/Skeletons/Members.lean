namespace Skeletons

variable {α : Type}

/-- Members in the order of their names, each name once. -/
def Ascending (members : List (String × α)) : Prop := members.Pairwise fun first second => first.1 < second.1

/-- Members with one more, in its place; a member of the same name is replaced. -/
def insertMember (name : String) (value : α) : List (String × α) → List (String × α)
  | [] => [(name, value)]
  | (other, held) :: rest =>
    if name < other then (name, value) :: (other, held) :: rest
    else if name = other then (name, value) :: rest
    else (other, held) :: insertMember name value rest

theorem mem_of_mem_insertMember {name : String} {value : α} {members : List (String × α)} {member : String × α}
    (inserted : member ∈ insertMember name value members) : member = (name, value) ∨ member ∈ members := by
  induction members with
  | nil => exact .inl (List.mem_singleton.mp inserted)
  | cons first rest ih =>
    rw [insertMember] at inserted
    split at inserted
    · exact List.mem_cons.mp inserted
    · split at inserted
      · exact (List.mem_cons.mp inserted).imp_right (List.mem_cons_of_mem first)
      · rcases List.mem_cons.mp inserted with rfl | further
        · exact .inr List.mem_cons_self
        · exact (ih further).imp_right (List.mem_cons_of_mem first)

theorem Ascending.insertMember {members : List (String × α)} (ascending : Ascending members) (name : String)
    (value : α) : Ascending (insertMember name value members) := by
  induction members with
  | nil => exact List.pairwise_singleton _ _
  | cons first rest ih =>
    obtain ⟨above, below⟩ := List.pairwise_cons.mp ascending
    rw [Skeletons.insertMember]
    split
    · rename_i less
      refine List.pairwise_cons.mpr ⟨?_, ascending⟩
      intro member among
      rcases List.mem_cons.mp among with rfl | further
      · exact less
      · exact String.lt_trans less (above member further)
    · rename_i notLess
      split
      · rename_i same
        subst same
        exact List.pairwise_cons.mpr ⟨above, below⟩
      · rename_i different
        refine List.pairwise_cons.mpr ⟨?_, ih below⟩
        intro member among
        rcases mem_of_mem_insertMember among with rfl | further
        · exact Std.lt_of_le_of_ne (String.not_lt.mp notLess) (Ne.symm different)
        · exact above member further

/-- The members of an object. Those that are in order and no others can be one. -/
structure Members (α : Type) where
  entries : List (String × α)
  ascending : Ascending entries

namespace Members

def empty : Members α := ⟨[], .nil⟩

def insert (members : Members α) (member : String × α) : Members α :=
  ⟨insertMember member.1 member.2 members.entries, members.ascending.insertMember member.1 member.2⟩

/-- Of several members with one name the last is kept. -/
def ofList (members : List (String × α)) : Members α := members.foldl insert empty

theorem mem_of_mem_foldl_insert {members : List (String × α)} {start : Members α} {member : String × α}
    (kept : member ∈ (members.foldl insert start).entries) : member ∈ start.entries ∨ member ∈ members := by
  induction members generalizing start with
  | nil => exact .inl kept
  | cons first rest ih =>
    rcases ih kept with before | later
    · rcases mem_of_mem_insertMember before with rfl | earlier
      · exact .inr List.mem_cons_self
      · exact .inl earlier
    · exact .inr (List.mem_cons_of_mem first later)

theorem mem_of_mem_ofList {members : List (String × α)} {member : String × α}
    (kept : member ∈ (ofList members).entries) : member ∈ members :=
  (mem_of_mem_foldl_insert kept).resolve_left List.not_mem_nil

end Members

def orderMembers (members : List (String × α)) : List (String × α) := (Members.ofList members).entries

end Skeletons
