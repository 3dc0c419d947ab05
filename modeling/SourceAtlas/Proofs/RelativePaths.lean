import SourceAtlas.Proofs.WalkFiles

/-!
Relative paths, whatever the root looks like.

* `Path.join_intercalate`: names may be put below a root one by one or all at once.
* `exists_names_of_mem_findings`: each file that a walk finds lies below its root by names, also
  behind links.
* `relative_path_is_names`: the relative path is made of these names and of nothing of the root.
-/

namespace SourceAtlas

namespace Path

variable {name : OsText}

/-! ## names that are joined first -/

/-- What follows a text that is not empty does not matter to how the text is joined. -/
theorem join_append (base tail : OsText) (h : name ≠ []) :
    join base (name ++ tail) = join base name ++ tail := by
  unfold join
  rw [isAbsolute_append h]
  split
  · rfl
  · split <;> simp only [List.append_assoc, List.cons_append]

theorem getLast?_join (base : OsText) (h : IsName name) :
    (join base name).getLast? = name.getLast? := by
  obtain ⟨last, hlast⟩ : ∃ last, name.getLast? = some last :=
    ⟨_, List.getLast?_eq_some_getLast h.1⟩
  unfold join
  split
  · rfl
  · split <;> simp [List.getLast?_append, List.getLast?_cons, hlast]

/-- A path that ends with a name is not empty and does not end with a slash. What is joined to it
comes after a slash. -/
theorem join_join (base : OsText) (h : IsName name) {tail : OsText}
    (htail : isAbsolute tail = false) :
    join (join base name) tail = join base name ++ slash :: tail := by
  have hlast := getLast?_join base h
  have hslash : (join base name).getLast? ≠ some slash := by
    rw [hlast]
    exact fun e => h.2.2.2 (List.mem_of_getLast? e)
  have hfull : (join base name).isEmpty = false := by
    rw [List.isEmpty_eq_false_iff]
    intro e
    rw [e] at hlast
    exact h.1 (List.getLast?_eq_none_iff.1 hlast.symm)
  rw [join, htail, hfull, if_neg (by simp), if_neg hslash]

theorem bytes_intercalate_cons {s : String} {rest : List String} (h : rest ≠ []) :
    Text.bytes ("/".intercalate (s :: rest)) =
      Text.bytes s ++ slash :: Text.bytes ("/".intercalate rest) := by
  have hslash : Text.bytes "/" = [slash] := rfl
  rw [String.intercalate_cons_of_ne_nil h, Text.bytes_append, Text.bytes_append, hslash,
    List.append_assoc, List.singleton_append]

theorem isAbsolute_intercalate {names : List String}
    (h : ∀ name ∈ names, IsName (Text.bytes name)) :
    isAbsolute (Text.bytes ("/".intercalate names)) = false := by
  cases names with
  | nil => rfl
  | cons name rest =>
    have hname := h name List.mem_cons_self
    by_cases hrest : rest = []
    · rw [hrest, String.intercalate_singleton]
      exact isAbsolute_name hname
    · rw [bytes_intercalate_cons hrest, isAbsolute_append hname.1]
      exact isAbsolute_name hname

/-- It is the same to put names below a root one after the other and to join them first. -/
theorem join_intercalate (root : OsText) {names : List String} (hne : names ≠ [])
    (h : ∀ name ∈ names, IsName (Text.bytes name)) :
    join root (Text.bytes ("/".intercalate names)) = under root (names.map Text.bytes) := by
  -- only the first name meets the end of the root; the others come after a name
  induction names generalizing root with
  | nil => exact absurd rfl hne
  | cons name rest ih =>
    obtain ⟨hname, hrest⟩ := List.forall_mem_cons.1 h
    by_cases hempty : rest = []
    · rw [hempty, String.intercalate_singleton]
      rfl
    · calc join root (Text.bytes ("/".intercalate (name :: rest)))
          = join root (Text.bytes name) ++ slash :: Text.bytes ("/".intercalate rest) := by
            rw [bytes_intercalate_cons hempty, join_append root _ hname.1]
        _ = join (join root (Text.bytes name)) (Text.bytes ("/".intercalate rest)) :=
            (join_join root hname (isAbsolute_intercalate hrest)).symm
        _ = under root ((name :: rest).map Text.bytes) :=
            ih (join root (Text.bytes name)) hempty hrest

theorem mem_intercalate_slash_iff {c : Char} (hc : c ≠ '/') {names : List String} :
    c ∈ ("/".intercalate names).toList ↔ ∃ name ∈ names, c ∈ name.toList := by
  induction names with
  | nil => simp
  | cons name rest ih =>
    by_cases hrest : rest = []
    · simp [hrest, String.intercalate_singleton]
    · rw [String.intercalate_cons_of_ne_nil hrest, String.toList_append, String.toList_append,
        List.mem_append, List.mem_append, ih]
      simp [hc]

/-- Names that are shown without replacement characters are text. -/
theorem isText_of_replacement_not_mem {names : List OsText}
    (h : Text.Utf8.replacement ∉ (shown names).toList) : ∀ name ∈ names, isText name := by
  intro name hname
  rw [shown, mem_intercalate_slash_iff (by decide)] at h
  have hnot : Text.Utf8.replacement ∉ (Text.Utf8.decodeLossy name).toList :=
    fun hmem => h ⟨_, List.mem_map_of_mem hname, hmem⟩
  exact isText_iff.2 (Text.Utf8.eq_bytes_of_replacement_not_mem hnot).symm

end Path

/-! ## the files of a walk -/

/-- Each file that is found below a root is where some names lead to, and these names are shown as
its relative path. -/
theorem exists_names_of_mem_findings {fs : FileSystem} (hfs : fs.top.isWellFormed)
    {settings : WalkSettings} {root path : OsText} {relative : String} {found : List Finding}
    (hfound : findings fs settings root = .ok found) (h : .file path relative ∈ found) :
    ∃ names, (∀ name ∈ names, Path.IsName name) ∧
      (fs.top.hasTextNames → ∀ name ∈ names, Path.isText name) ∧
      path = Path.under root names ∧ relative = Path.shown names := by
  let w : Walk := ⟨fs, settings, root⟩
  cases hroot : rootPlace fs root with
  | error e => simp [findings, hroot] at hfound
  | ok place =>
    rw [findings_eq_visit hroot, Except.ok.injEq] at hfound
    subst hfound
    split at h
    · cases h
    · rw [← w.map_snd_trail _ [], List.mem_map] at h
      obtain ⟨⟨names, f⟩, hmem, rfl⟩ := h
      obtain ⟨-, hnames, hnoted⟩ := Walk.noted_of_mem_trail hfs (w.reached_start place) hmem
      refine ⟨names, hnames, fun htext => ?_, ?_⟩
      · exact Walk.forall_of_mem_trail (fun _ _ => FileSystem.isText_list htext) (by simp) hmem
      · rcases hnoted with hfile | hclosed | ⟨message, hunreadable⟩
        · exact Finding.file.inj hfile
        · cases hclosed
        · cases hunreadable

/-- However a root is written, the way from it to what some names lead to is these names with
slashes between them. Other names give another way, and all files that a walk finds by one way have
the same path, as long as names are text or what is shown has no replacement characters. -/
theorem relative_path_is_names (root : OsText) {names : List String} (hne : names ≠ [])
    (h : ∀ name ∈ names, Path.IsName (Text.bytes name)) :
    Path.relative root (Path.under root (names.map Text.bytes)) = "/".intercalate names ∧
    Path.relative root (Path.join root (Text.bytes ("/".intercalate names))) =
      "/".intercalate names ∧
    (∀ others : List String, others ≠ [] → (∀ name ∈ others, Path.IsName (Text.bytes name)) →
      (Path.relative root (Path.under root (others.map Text.bytes)) =
        Path.relative root (Path.under root (names.map Text.bytes)) ↔ others = names)) ∧
    ∀ (fs : FileSystem) (settings : WalkSettings) (found : List Finding), fs.top.isWellFormed →
      findings fs settings root = .ok found →
      (fs.top.hasTextNames ∨ ∀ name ∈ names, Text.Utf8.replacement ∉ name.toList) →
      ∀ path, .file path ("/".intercalate names) ∈ found →
        path = Path.under root (names.map Text.bytes) := by
  have hbytes : ∀ name ∈ names.map Text.bytes, Path.IsName name := List.forall_mem_map.2 h
  have hrelative := Path.relative_under root hbytes
  rw [Path.shown_map_bytes] at hrelative
  refine ⟨hrelative, ?_, ?_, ?_⟩
  · rw [Path.join_intercalate root hne h, hrelative]
  · intro others hne' h'
    rw [hrelative, Path.relative_under root (List.forall_mem_map.2 h'), Path.shown_map_bytes]
    exact intercalate_slash_inj (fun name hname => (h' name hname).of_bytes)
      fun name hname => (h name hname).of_bytes
  · intro fs settings found hfs hfound htext path hmem
    obtain ⟨others, hothers, hall, rfl, hshown⟩ := exists_names_of_mem_findings hfs hfound hmem
    have hothersText : ∀ name ∈ others, Path.isText name := by
      rcases htext with htext | hplain
      · exact hall htext
      · refine Path.isText_of_replacement_not_mem ?_
        rw [← hshown, Path.mem_intercalate_slash_iff (by decide)]
        rintro ⟨name, hname, hreplacement⟩
        exact hplain name hname hreplacement
    rw [← Path.shown_map_bytes] at hshown
    rw [(Path.shown_inj (fun name hname => ⟨hbytes name hname, ?_⟩)
      fun name hname => ⟨hothers name hname, hothersText name hname⟩).1 hshown]
    obtain ⟨s, -, rfl⟩ := List.mem_map.1 hname
    exact Path.isText_bytes s

/-- The root begins with a dot, has a doubled slash and leads back from a directory named like the
first name below it. -/
theorem relative_path_is_names_roundabout :
    let root := Text.bytes ".//src/lib/../."
    (∀ name ∈ ["lib", "a.ts"], Path.IsName (Text.bytes name)) ∧ grove.top.isWellFormed ∧
      grove.top.hasTextNames ∧
      Path.relative root (Text.bytes ".//src/lib/.././lib/a.ts") = "lib/a.ts" ∧
      ∃ found, findings grove .standard root = .ok found ∧
        .file (Text.bytes ".//src/lib/.././lib/a.ts") "lib/a.ts" ∈ found ∧
        ∀ path, .file path "lib/a.ts" ∈ found →
          path = Text.bytes ".//src/lib/.././lib/a.ts" := by
  intro root
  have hnames : ∀ name ∈ ["lib", "a.ts"], Path.IsName (Text.bytes name) := by decide
  have hfs : grove.top.isWellFormed := by decide
  have htext : grove.top.hasTextNames := by decide
  have hfound : findings grove .standard (Text.bytes ".//src/lib/../.") =
      .ok [.file (Text.bytes ".//src/lib/.././build") "build",
        .file (Text.bytes ".//src/lib/.././build.py") "build.py",
        .file (Text.bytes ".//src/lib/.././lib/a.ts") "lib/a.ts",
        .file (Text.bytes ".//src/lib/.././lib.go") "lib.go",
        .file (Text.bytes ".//src/lib/.././z.go") "z.go"] := by
    set_option maxRecDepth 100000 in cbv
  obtain ⟨hrelative, -, -, hunique⟩ := relative_path_is_names root (by decide) hnames
  refine ⟨hnames, hfs, htext, hrelative, _, hfound, by simp, ?_⟩
  exact hunique grove _ _ hfs hfound (.inl htext)

end SourceAtlas
