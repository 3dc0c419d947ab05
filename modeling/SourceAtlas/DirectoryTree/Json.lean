import SourceAtlas.DirectoryTree.Basic
import SourceAtlas.Json.Basic

/-!
Directory trees as JSON values: a file is `null`, a directory an object with a field for each entry.
-/

namespace SourceAtlas

namespace TreeEntry

mutual

def toJson : TreeEntry → Json
  | file => .null
  | directory entries => .obj (fields entries)

def fields : List (String × TreeEntry) → List (String × Json)
  | [] => []
  | named :: rest => field named :: fields rest

def field : String × TreeEntry → String × Json
  | (name, entry) => (name, toJson entry)

end

mutual

def ofJson? : Json → Option TreeEntry
  | .null => some file
  | .obj fields => (ofFields? fields).map directory
  | _ => none

/-- The entries that the fields of an object describe. -/
def ofFields? : List (String × Json) → Option (List (String × TreeEntry))
  | [] => some []
  | field :: rest =>
    match ofField? field, ofFields? rest with
    | some entry, some entries => some (alter field.1 (fun later => later.getD entry) entries)
    | _, _ => none

def ofField? : String × Json → Option TreeEntry
  | (_, v) => ofJson? v

end

mutual

theorem ordered_ofJson? {v : Json} {e : TreeEntry} (h : ofJson? v = some e) : e.Ordered := by
  match v with
  | .null =>
    simp only [ofJson?, Option.some.injEq] at h
    subst h
    simp [Ordered]
  | .obj fields =>
    simp only [ofJson?, Option.map_eq_some_iff] at h
    obtain ⟨entries, found, rfl⟩ := h
    simpa [Ordered] using orderedAll_ofFields? found
  | .bool _ | .int _ | .float _ | .str _ | .arr _ => simp [ofJson?] at h

theorem orderedAll_ofFields? {fields : List (String × Json)}
    {entries : List (String × TreeEntry)} (h : ofFields? fields = some entries) :
    OrderedAll entries := by
  match fields with
  | [] =>
    simp only [ofFields?, Option.some.injEq] at h
    subst h
    simp [OrderedAll]
  | (name, v) :: rest =>
    simp only [ofFields?, ofField?] at h
    split at h
    · rename_i entry below first more
      simp only [Option.some.injEq] at h
      subst h
      exact orderedAll_alter (by simpa using ordered_ofJson? first) (fun e he => by simpa using he)
        (orderedAll_ofFields? more)
    · cases h

end

end TreeEntry

namespace DirectoryTree

def toJson (t : DirectoryTree) : Json := .obj (TreeEntry.fields t.entries)

def ofJson? : Json → Option DirectoryTree
  | .obj fields =>
    match h : TreeEntry.ofFields? fields with
    | some entries => some ⟨entries, TreeEntry.orderedAll_ofFields? h⟩
    | none => none
  | _ => none

end DirectoryTree

end SourceAtlas
