import SourceAtlas.DirectoryTree.Basic
import SourceAtlas.FileSystem
import SourceAtlas.Proofs.Lines
import SourceAtlas.Proofs.LossyDecoding

/-!
Paths that are put together from names.

* `Path.IsName`: the names that a path may be put together from.
* `Path.under`: the path that some names lead to from a root. `Path.shown`: the names as a text.
* `Path.relative_under`: the names that lead there are found again, whatever the root looks like.
* `DirectoryTree.segments_intercalate`, `intercalate_slash_inj`: names that are joined by slashes
  are read back.
* `Path.shown_inj`: names that are text can be told from what is shown of them.
-/

namespace SourceAtlas

namespace Path

/-- What a path may be put together from. -/
def IsName (name : OsText) : Prop :=
  name ≠ [] ∧ name ≠ [dot] ∧ name ≠ [dot, dot] ∧ slash ∉ name

instance (name : OsText) : Decidable (IsName name) :=
  inferInstanceAs (Decidable (_ ∧ _ ∧ _ ∧ _))

/-- A name is the bytes of a text. -/
def isText (name : OsText) : Bool := (Text.Utf8.decode? name).isSome

/-- The path that some names lead to, one below the other. -/
def under (root : OsText) (names : List OsText) : OsText := names.foldl join root

/-- What is shown of names: the texts that they stand for, with slashes between them. -/
def shown (names : List OsText) : String := "/".intercalate (names.map Text.Utf8.decodeLossy)

@[simp] theorem under_nil (root : OsText) : under root [] = root := rfl

theorem under_concat (root : OsText) (names : List OsText) (name : OsText) :
    under root (names ++ [name]) = join (under root names) name := by
  simp [under]

/-! ## the parts of a path -/

section Name

variable {name : OsText}

theorem IsName.isSlash_eq_false (h : IsName name) : ∀ b ∈ name, isSlash b = false := by
  intro b hb
  have hne : b ≠ slash := fun e => h.2.2.2 (e ▸ hb)
  simpa [isSlash] using hne

theorem splitOn_name (h : IsName name) : Text.splitOn isSlash name = [name] :=
  Text.splitOn_of_forall_not h.isSlash_eq_false

theorem isAbsolute_name (h : IsName name) : isAbsolute name = false := by
  obtain ⟨b, bs, rfl⟩ := List.exists_cons_of_ne_nil h.1
  have hne : b ≠ slash := by
    rintro rfl
    exact h.2.2.2 List.mem_cons_self
  simpa [isAbsolute] using hne

theorem laterComponent?_name (h : IsName name) : laterComponent? name = some (.name name) := by
  obtain ⟨hempty, hdot, hdots, -⟩ := h
  simp [laterComponent?, hempty, hdot, hdots]

end Name

theorem components_eq {path first : OsText} {rest : List OsText}
    (h : Text.splitOn isSlash path = first :: rest) :
    components path =
      (if isAbsolute path then [.root] else (firstComponent? first).toList) ++
        rest.filterMap laterComponent? := by
  rw [components, h]

theorem isAbsolute_append {base : OsText} (h : base ≠ []) (tail : OsText) :
    isAbsolute (base ++ tail) = isAbsolute base := by
  obtain ⟨b, bs, rfl⟩ := List.exists_cons_of_ne_nil h
  rfl

/-- What follows a slash adds parts that are not at the beginning of a path. -/
theorem components_append_slash {base : OsText} (h : base ≠ []) (tail : OsText) :
    components (base ++ slash :: tail) =
      components base ++ (Text.splitOn isSlash tail).filterMap laterComponent? := by
  obtain ⟨first, rest, e⟩ := List.exists_cons_of_ne_nil (Text.splitOn_ne_nil isSlash base)
  have hsplit : Text.splitOn isSlash (base ++ slash :: tail) =
      first :: (rest ++ Text.splitOn isSlash tail) := by
    rw [Text.splitOn_append_cut (by simp [isSlash]), e]
    rfl
  rw [components_eq hsplit, components_eq e, isAbsolute_append h, List.filterMap_append,
    List.append_assoc]

/-- A name that stands alone. -/
theorem components_name {name : OsText} (h : IsName name) : components name = [.name name] := by
  rw [components_eq (splitOn_name h), isAbsolute_name h, firstComponent?, if_neg h.2.1,
    laterComponent?_name h]
  rfl

/-- A name right below the topmost directory. -/
theorem components_slash_cons {name : OsText} (h : IsName name) :
    components (slash :: name) = [.root, .name name] := by
  have hsplit : Text.splitOn isSlash (slash :: name) = [[], name] := by
    have hcut := Text.splitOn_append_cut (show isSlash slash = true from rfl) [] name
    rwa [splitOn_name h] at hcut
  rw [components_eq hsplit]
  simp [isAbsolute, laterComponent?_name h]

/-- A name below a path is one more part of it. -/
theorem components_join (base : OsText) {name : OsText} (h : IsName name) :
    components (join base name) = components base ++ [.name name] := by
  have hname : (Text.splitOn isSlash name).filterMap laterComponent? = [.name name] := by
    rw [splitOn_name h, List.filterMap_cons, laterComponent?_name h]
    rfl
  unfold join
  rw [isAbsolute_name h]
  by_cases hempty : base = []
  · subst hempty
    exact components_name h
  · have hnot : base.isEmpty = false := by simpa using hempty
    rw [hnot, if_neg (by simp)]
    split
    · -- the path ends with a slash, before which there may be nothing
      rename_i hslash
      obtain ⟨front, rfl⟩ := List.getLast?_eq_some_iff.1 hslash
      rw [List.append_assoc, List.singleton_append]
      by_cases hfront : front = []
      · subst hfront
        exact components_slash_cons h
      · have hbare : components (front ++ [slash]) = components front := by
          rw [components_append_slash hfront]
          simp [Text.splitOn, laterComponent?]
        rw [components_append_slash hfront, hname, hbare]
    · rw [components_append_slash hempty, hname]

theorem components_under (root : OsText) {names : List OsText} (h : ∀ name ∈ names, IsName name) :
    components (under root names) = components root ++ names.map .name := by
  induction names generalizing root with
  | nil => simp
  | cons name names ih =>
    have hstep : under root (name :: names) = under (join root name) names := rfl
    rw [hstep, ih _ fun n hn => h n (List.mem_cons_of_mem _ hn),
      components_join root (h name List.mem_cons_self)]
    simp

/-- Below a path that is not empty, a name comes after a slash. -/
theorem join_eq {base name : OsText} (hbase : base ≠ []) (hname : IsName name) :
    join base name = base ++ name ∧ base.getLast? = some slash ∨
      join base name = base ++ slash :: name := by
  have hnot : base.isEmpty = false := by simpa using hbase
  unfold join
  rw [isAbsolute_name hname, hnot, if_neg (by simp)]
  split
  · exact .inl ⟨rfl, ‹_›⟩
  · exact .inr rfl

/-! ## the way from a root -/

/-- The names that lead from a root to a path are found again. -/
theorem relative_under (root : OsText) {names : List OsText} (h : ∀ name ∈ names, IsName name) :
    relative root (under root names) = shown names := by
  have hbelow : below (components root) (components (under root names)) = names.map .name := by
    rw [components_under root h, below, if_pos (by simp)]
    simp
  have hnames : (names.map Component.name).filterMap Component.name? = names := by
    rw [List.filterMap_map]
    exact List.filterMap_some
  rw [relative, hbelow, hnames, shown]

end Path

/-! ## names with slashes between them -/

/-- Names that are joined by slashes are the pieces between the slashes. -/
theorem splitOn_intercalate_slash {cut : Char → Bool} (hcut : cut '/' = true) {names : List String}
    (h : ∀ name ∈ names, name ≠ "" ∧ ∀ c ∈ name.toList, cut c = false) :
    ((Text.splitOn cut ("/".intercalate names).toList).filter fun piece => !piece.isEmpty) =
      names.map String.toList := by
  by_cases hne : names = []
  · simp [hne, Text.splitOn]
  · have htext : ("/".intercalate names).toList = ['/'].intercalate (names.map String.toList) := by
      simp
    have hpieces : ∀ piece ∈ names.map String.toList, ∀ c ∈ piece, cut c = false :=
      List.forall_mem_map.2 fun name hname => (h name hname).2
    rw [htext, Text.splitOn_intercalate hcut (by simpa using hne) hpieces, List.filter_eq_self]
    refine List.forall_mem_map.2 fun name hname => ?_
    simpa using (h name hname).1

/-- What a segment of a path may be called. -/
def DirectoryTree.SegmentName (name : String) : Prop :=
  name ≠ "" ∧ '/' ∉ name.toList ∧ '\\' ∉ name.toList

instance (name : String) : Decidable (DirectoryTree.SegmentName name) :=
  inferInstanceAs (Decidable (_ ∧ _ ∧ _))

/-- Names without slashes of either kind are the segments of the path that joins them. -/
theorem DirectoryTree.segments_intercalate {names : List String}
    (h : ∀ name ∈ names, SegmentName name) : segments ("/".intercalate names) = names := by
  rw [segments, splitOn_intercalate_slash (by simp) fun name hname => ⟨(h name hname).1, ?_⟩]
  · simp
  · intro c hc
    have hslash : c ≠ '/' := fun e => (h name hname).2.1 (e ▸ hc)
    have hback : c ≠ '\\' := fun e => (h name hname).2.2 (e ▸ hc)
    simp [hslash, hback]

theorem intercalate_slash_inj {names others : List String}
    (h : ∀ name ∈ names, name ≠ "" ∧ '/' ∉ name.toList)
    (h' : ∀ name ∈ others, name ≠ "" ∧ '/' ∉ name.toList) :
    "/".intercalate names = "/".intercalate others ↔ names = others := by
  have hpieces {names : List String} (h : ∀ name ∈ names, name ≠ "" ∧ '/' ∉ name.toList) :
      ((Text.splitOn (· == '/') ("/".intercalate names).toList).filter
        fun piece => !piece.isEmpty) = names.map String.toList := by
    refine splitOn_intercalate_slash (by simp) fun name hname => ⟨(h name hname).1, fun c hc => ?_⟩
    have hslash : c ≠ '/' := fun e => (h name hname).2 (e ▸ hc)
    simpa using hslash
  refine ⟨fun heq => ?_, fun heq => heq ▸ rfl⟩
  have hchars : names.map String.toList = others.map String.toList := by
    rw [← hpieces h, ← hpieces h', heq]
  exact List.map_injective_iff.2 (fun _ _ => String.toList_inj.1) hchars

/-! ## names that are text -/

namespace Path

theorem slash_mem_bytes_iff {s : String} : slash ∈ Text.bytes s ↔ '/' ∈ s.toList :=
  Text.mem_bytes_iff (by decide)

theorem IsName.of_bytes {s : String} (h : IsName (Text.bytes s)) : s ≠ "" ∧ '/' ∉ s.toList := by
  refine ⟨?_, fun hslash => h.2.2.2 (slash_mem_bytes_iff.2 hslash)⟩
  rintro rfl
  exact h.1 rfl

@[simp] theorem shown_map_bytes (names : List String) :
    shown (names.map Text.bytes) = "/".intercalate names := by
  simp [shown, Function.comp_def]

theorem isText_iff {name : OsText} :
    isText name ↔ Text.bytes (Text.Utf8.decodeLossy name) = name := by
  rw [isText, Option.isSome_iff_exists]
  constructor
  · rintro ⟨s, hs⟩
    rw [Text.Utf8.decode?_eq_some_iff.1 hs, Text.Utf8.decodeLossy_bytes]
  · intro h
    exact ⟨_, Text.Utf8.decode?_eq_some_iff.2 h.symm⟩

@[simp] theorem isText_bytes (s : String) : isText (Text.bytes s) :=
  isText_iff.2 (by rw [Text.Utf8.decodeLossy_bytes])

/-- Names that are text are told from what is shown of them. -/
theorem map_bytes_decodeLossy {names : List OsText} (h : ∀ name ∈ names, isText name) :
    (names.map Text.Utf8.decodeLossy).map Text.bytes = names := by
  rw [List.map_map]
  exact (List.map_congr_left fun name hname => isText_iff.1 (h name hname)).trans (List.map_id _)

theorem shown_inj {names others : List OsText} (h : ∀ name ∈ names, IsName name ∧ isText name)
    (h' : ∀ name ∈ others, IsName name ∧ isText name) :
    shown names = shown others ↔ names = others := by
  have hlegal {names : List OsText} (h : ∀ name ∈ names, IsName name ∧ isText name) :
      ∀ s ∈ names.map Text.Utf8.decodeLossy, s ≠ "" ∧ '/' ∉ s.toList := by
    refine List.forall_mem_map.2 fun name hname => IsName.of_bytes ?_
    rw [isText_iff.1 (h name hname).2]
    exact (h name hname).1
  refine ⟨fun heq => ?_, fun heq => heq ▸ rfl⟩
  have hnames := (intercalate_slash_inj (hlegal h) (hlegal h')).1 heq
  rw [← map_bytes_decodeLossy fun name hname => (h name hname).2, hnames,
    map_bytes_decodeLossy fun name hname => (h' name hname).2]

end Path

end SourceAtlas
