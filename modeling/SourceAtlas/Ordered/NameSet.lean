/-!
Finite sets of texts, listed in increasing order of code points.

* `NameSet`: a strictly increasing list, so that equal sets are equal values.
* `NameSet.insert`, `NameSet.ofList`, `NameSet.contains`.
-/

namespace SourceAtlas

structure NameSet where
  toList : List String
  sorted : toList.Pairwise (· < ·)
deriving DecidableEq

namespace NameSet

/-- `name` in its place in an increasing list, unless it is there already. -/
def insertInto (name : String) : List String → List String
  | [] => [name]
  | first :: rest =>
    if name < first then name :: first :: rest
    else if name = first then first :: rest
    else first :: insertInto name rest

theorem mem_insertInto {name x : String} {names : List String} :
    x ∈ insertInto name names ↔ x = name ∨ x ∈ names := by
  induction names with
  | nil => simp [insertInto]
  | cons first rest ih => grind [insertInto]

theorem sorted_insertInto {name : String} {names : List String} (h : names.Pairwise (· < ·)) :
    (insertInto name names).Pairwise (· < ·) := by
  induction names with
  | nil => simp [insertInto]
  | cons first rest ih =>
    obtain ⟨hfirst, hrest⟩ := List.pairwise_cons.1 h
    unfold insertInto
    split
    · next hlt =>
      refine List.pairwise_cons.2 ⟨fun y hy => ?_, h⟩
      rcases List.mem_cons.1 hy with rfl | hy
      · exact hlt
      · exact String.lt_trans hlt (hfirst y hy)
    · split
      · exact h
      · next hle hne =>
        refine List.pairwise_cons.2 ⟨fun y hy => ?_, ih hrest⟩
        rcases mem_insertInto.1 hy with rfl | hy
        · exact Std.lt_of_le_of_ne hle (Ne.symm hne)
        · exact hfirst y hy

def empty : NameSet := ⟨[], List.Pairwise.nil⟩

instance : Inhabited NameSet := ⟨empty⟩

instance : EmptyCollection NameSet := ⟨empty⟩

def insert (s : NameSet) (name : String) : NameSet :=
  ⟨insertInto name s.toList, sorted_insertInto s.sorted⟩

def ofList (names : List String) : NameSet := names.foldl insert empty

def contains (s : NameSet) (name : String) : Bool := s.toList.contains name

def size (s : NameSet) : Nat := s.toList.length

def isEmpty (s : NameSet) : Bool := s.toList.isEmpty

instance : Membership String NameSet := ⟨fun s name => name ∈ s.toList⟩

instance (name : String) (s : NameSet) : Decidable (name ∈ s) :=
  inferInstanceAs (Decidable (name ∈ s.toList))

@[simp]
theorem not_mem_empty {name : String} : ¬ name ∈ (∅ : NameSet) := List.not_mem_nil

@[simp]
theorem mem_insert {s : NameSet} {name x : String} : x ∈ s.insert name ↔ x = name ∨ x ∈ s :=
  mem_insertInto

@[simp]
theorem contains_iff {s : NameSet} {name : String} : s.contains name = true ↔ name ∈ s := by
  simp [contains, Membership.mem]

end NameSet

end SourceAtlas
