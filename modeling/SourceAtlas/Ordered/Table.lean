import SourceAtlas.Ordered.Entries

/-!
Finite maps from texts, listed in increasing order of their keys.

* `Table`: a list of entries with strictly increasing keys, so that equal maps are equal values.
* `Table.insert`, `Table.find?`, `Table.ofList`.
* `Table.find?_eq_some_iff`, `Table.find?_insert`, `Table.find?_ofList`: what is found in a table.
-/

namespace SourceAtlas

structure Table (β : Type) where
  entries : List (String × β)
  sorted : entries.Pairwise (fun a b => a.1 < b.1)

namespace Table

variable {β : Type}

/-- An entry in its place in a list with increasing keys; an entry with the same key is replaced. -/
def insertInto (key : String) (value : β) : List (String × β) → List (String × β)
  | [] => [(key, value)]
  | first :: rest =>
    if key < first.1 then (key, value) :: first :: rest
    else if key = first.1 then (key, value) :: rest
    else first :: insertInto key value rest

theorem key_of_mem_insertInto {key : String} {value : β} {e : String × β}
    {entries : List (String × β)} (h : e ∈ insertInto key value entries) :
    e = (key, value) ∨ e ∈ entries := by
  induction entries with
  | nil => simpa [insertInto] using h
  | cons first rest ih => grind [insertInto]

theorem sorted_insertInto {key : String} {value : β} {entries : List (String × β)}
    (h : entries.Pairwise (fun a b => a.1 < b.1)) :
    (insertInto key value entries).Pairwise (fun a b => a.1 < b.1) := by
  induction entries with
  | nil => simp [insertInto]
  | cons first rest ih =>
    obtain ⟨hfirst, hrest⟩ := List.pairwise_cons.1 h
    unfold insertInto
    split
    · next hlt =>
      refine List.pairwise_cons.2 ⟨fun e he => ?_, h⟩
      rcases List.mem_cons.1 he with rfl | he
      · exact hlt
      · exact String.lt_trans hlt (hfirst e he)
    · split
      · next heq =>
        exact List.pairwise_cons.2 ⟨fun e he => heq ▸ hfirst e he, hrest⟩
      · next hle hne =>
        refine List.pairwise_cons.2 ⟨fun e he => ?_, ih hrest⟩
        rcases key_of_mem_insertInto he with rfl | he
        · exact Std.lt_of_le_of_ne hle (Ne.symm hne)
        · exact hfirst e he

theorem lookup_insertInto (key other : String) (value : β) (entries : List (String × β)) :
    (insertInto key value entries).lookup other =
      if other = key then some value else entries.lookup other := by
  induction entries with
  | nil =>
    by_cases h : other = key
    · simp [insertInto, h]
    · simp [insertInto, h, Entries.lookup_cons_of_ne h]
  | cons first rest ih =>
    obtain ⟨name, old⟩ := first
    unfold insertInto
    dsimp only
    by_cases h : other = key
    · subst h
      split
      · simp
      · split
        · simp
        · rename_i hne
          simp [Entries.lookup_cons_of_ne hne, ih]
    · rw [if_neg h]
      rw [if_neg h] at ih
      split
      · rw [Entries.lookup_cons_of_ne h]
      · split
        · rename_i heq
          subst heq
          rw [Entries.lookup_cons_of_ne h, Entries.lookup_cons_of_ne h]
        · rw [List.lookup_cons, List.lookup_cons, ih]

def empty : Table β := ⟨[], List.Pairwise.nil⟩

instance : Inhabited (Table β) := ⟨empty⟩

def insert (t : Table β) (key : String) (value : β) : Table β :=
  ⟨insertInto key value t.entries, sorted_insertInto t.sorted⟩

/-- Later entries win. -/
def ofList (entries : List (String × β)) : Table β :=
  entries.foldl (fun t e => t.insert e.1 e.2) empty

def find? (t : Table β) (key : String) : Option β := t.entries.lookup key

def isEmpty (t : Table β) : Bool := t.entries.isEmpty

/-! ## look-up -/

theorem nodup_keys (t : Table β) : (t.entries.map Prod.fst).Nodup :=
  List.pairwise_map.2 (t.sorted.imp fun hlt => String.ne_of_lt hlt)

/-- The entries of a table are what is found in it. -/
theorem find?_eq_some_iff {t : Table β} {key : String} {value : β} :
    t.find? key = some value ↔ (key, value) ∈ t.entries :=
  Entries.lookup_eq_some_iff_mem t.nodup_keys

theorem find?_insert (t : Table β) (key other : String) (value : β) :
    (t.insert key value).find? other = if other = key then some value else t.find? other :=
  lookup_insertInto key other value t.entries

/-- The last of several entries with one key is found. -/
theorem find?_ofList (entries : List (String × β)) (key : String) :
    (ofList entries).find? key = entries.reverse.lookup key := by
  have h : ∀ t : Table β, (entries.foldl (fun t e => t.insert e.1 e.2) t).find? key =
      (entries.reverse.lookup key).or (t.find? key) := by
    induction entries with
    | nil => simp
    | cons first rest ih =>
      intro t
      obtain ⟨name, value⟩ := first
      rw [List.foldl_cons, ih, find?_insert, List.reverse_cons, List.lookup_append, Option.or_assoc]
      by_cases hkey : key = name
      · simp [hkey]
      · simp [hkey, Entries.lookup_cons_of_ne hkey]
  rw [ofList, h, show (empty : Table β).find? key = none from rfl, Option.or_none]

end Table

end SourceAtlas
