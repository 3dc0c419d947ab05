import SourceAtlas.Proofs.TreeFiles
import SourceAtlas.Proofs.WalkFiles
import SourceAtlas.Report.Basic

/-!
The tree of a report and the walk it comes from.

* `exists_surveyed`: what gets a record, whatever the root is called.
* `surveyedTexts`: the names that lead there, as texts. They part as the names do.
* `Report.tree_mirrors_survey`: the leaves of the tree are the records, in the same order, and the
  drawing of the tree is read as the tree.
-/

namespace SourceAtlas

variable {fs : FileSystem} {settings : Settings} {root : OsText} {place : Place}
  {names : List OsText} {f : Finding} {surveyed : List (List OsText × Finding)}

/-- Whatever the root is called, what gets a record comes in order. -/
theorem exists_surveyed (hfs : fs.top.isWellFormed) (hplain : settings.walk.Plain)
    (hroot : rootPlace fs root = .ok place) :
    ∃ surveyed : List (List OsText × Finding),
      candidates fs settings root = .ok (surveyed.map Prod.snd) ∧
      (surveyed.map Prod.fst).Pairwise (Parts (· < ·)) ∧
      ∀ names f, (names, f) ∈ surveyed → IsSurveyed fs settings root place names f := by
  cases hinput : isStandardInput root with
  | true =>
    have hfound : findings fs settings.walk root = .ok [] := by
      rw [findings_eq_visit hroot, if_pos hinput]
    exact ⟨[], candidates_of_findings hfound, List.Pairwise.nil, by simp⟩
  | false =>
    obtain ⟨surveyed, hcandidates, hparts, hmem⟩ := candidates_eq_surveyed hfs hplain hroot hinput
    exact ⟨surveyed, hcandidates, hparts, fun names f => (hmem names f).1⟩

/-- The root itself has no record. -/
theorem IsSurveyed.ne_nil (hroot : rootPlace fs root = .ok place)
    (h : IsSurveyed fs settings root place names f) : names ≠ [] := by
  rintro rfl
  obtain ⟨hlocate, mode, items, hat, hlists⟩ := rootPlace_eq_ok_iff.1 hroot
  obtain ⟨hfound, -⟩ := h
  cases hfound with
  | file hfile hway hentered =>
    rw [List.append_nil, hat] at hfile
    cases hfile
  | closed hdirectory hway hentered hlist =>
    rw [Path.under_nil, FileSystem.list_eq_ok_iff.2 ⟨place, mode, hlocate, hat, hlists⟩] at hlist
    cases hlist

/-! ## names as texts -/

/-- The texts of the names by which things are found. -/
def surveyedTexts (surveyed : List (List OsText × Finding)) : List (List String) :=
  surveyed.map fun s => s.1.map Text.Utf8.decodeLossy

theorem pairwise_surveyedTexts (hparts : (surveyed.map Prod.fst).Pairwise (Parts (· < ·)))
    (htext : ∀ s ∈ surveyed, ∀ name ∈ s.1, Path.isText name) :
    (surveyedTexts surveyed).Pairwise (Parts (· < ·)) := by
  rw [List.pairwise_map] at hparts
  refine List.pairwise_map.2 (hparts.imp_of_mem fun {a b} ha hb hab => ?_)
  rw [← Path.map_bytes_decodeLossy (htext a ha), ← Path.map_bytes_decodeLossy (htext b hb)] at hab
  exact hab.of_map Text.bytes_injective fun _ _ => Text.lt_of_bytes_lt_bytes

/-- Each text is the name of something below the root. -/
theorem mem_surveyedTexts (hfs : fs.top.isWellFormed) (hroot : rootPlace fs root = .ok place)
    (htext : ∀ name ∈ fs.namesBelow place, Path.isText name)
    (hsurveyed : ∀ names f, (names, f) ∈ surveyed → IsSurveyed fs settings root place names f) :
    ∀ texts ∈ surveyedTexts surveyed, texts ≠ [] ∧ ∀ text ∈ texts,
      Path.IsName (Text.bytes text) ∧ Text.bytes text ∈ fs.namesBelow place := by
  refine List.forall_mem_map.2 fun s hs => ?_
  have hfound := hsurveyed s.1 s.2 hs
  refine ⟨by simpa using hfound.ne_nil hroot, List.forall_mem_map.2 fun name hname => ?_⟩
  have hbelow := hfound.mem_namesBelow hroot name hname
  rw [Path.isText_iff.1 (htext name hbelow)]
  exact ⟨hfound.1.isName hfs name hname, hbelow⟩

/-- **The tree of a report mirrors the walk.**  Where links are not followed and ignore files not
read, the leaves of the tree in a report are the records of the survey, in the same order, provided
that names are texts without backslashes.  These are files, and directories that cannot be listed.
The drawing of the tree is read as the tree, provided that no name has a line end in it. -/
theorem Report.tree_mirrors_survey (tools : Toolchain) (hfs : fs.top.isWellFormed)
    (hplain : settings.walk.Plain) (hroot : rootPlace fs root = .ok place)
    (htext : ∀ name ∈ fs.namesBelow place, Path.isText name)
    (hnames : ∀ text, Text.bytes text ∈ fs.namesBelow place → '\\' ∉ text.toList) :
    (tools.Settled settings.analysis → ∃ set, survey tools fs settings root = .ok (.ok set)) ∧
    ∀ set, survey tools fs settings root = .ok (.ok set) →
      (ofRecords settings set).tree.filePaths = set.toList.map Record.path ∧
      ((∀ text, Text.bytes text ∈ fs.namesBelow place →
          '\n' ∉ text.toList ∧ text.toList.getLast? ≠ some '\r') →
        DirectoryTree.parse (ofRecords settings set).treeView =
          .ok (ofRecords settings set).tree) := by
  obtain ⟨surveyed, hcandidates, hparts, hsurveyed⟩ := exists_surveyed hfs hplain hroot
  have htexts := mem_surveyedTexts hfs hroot htext hsurveyed
  refine ⟨fun hsettled => ?_, fun set hset => ?_⟩
  · obtain ⟨records, hrecords⟩ := hsettled.exists_records fs (surveyed.map Prod.snd)
    rw [survey_of_candidates tools hcandidates, mapM_eq_ok_iff.2 hrecords]
    exact ⟨_, rfl⟩
  have hfiles : ∀ texts ∈ surveyedTexts surveyed,
      texts ≠ [] ∧ ∀ text ∈ texts, DirectoryTree.SegmentName text := by
    intro texts h
    refine ⟨(htexts texts h).1, fun text hmem => ?_⟩
    obtain ⟨hname, hbelow⟩ := (htexts texts h).2 text hmem
    exact ⟨hname.of_bytes.1, hname.of_bytes.2, hnames text hbelow⟩
  have hpaths : set.toList.map Record.path = (surveyedTexts surveyed).map ("/".intercalate ·) := by
    rw [(toList_of_survey hfs hroot htext hcandidates hparts hsurveyed hset).2, surveyedTexts,
      List.map_map]
    rfl
  -- the paths are sorted as texts before they are inserted
  have hperm : ((set.toList.map Record.path).mergeSort fun a b => decide (a ≤ b)).Perm
      ((surveyedTexts surveyed).map ("/".intercalate ·)) := by
    rw [hpaths]
    exact List.mergeSort_perm _ _
  refine ⟨?_, fun hlines => ?_⟩
  · rw [hpaths]
    refine DirectoryTree.filePaths_ofPaths (pairwise_surveyedTexts hparts fun s hs name hname => ?_)
      hfiles hperm
    exact htext name ((hsurveyed s.1 s.2 hs).mem_namesBelow hroot name hname)
  · refine DirectoryTree.parse_render_of_drawable ?_
    refine DirectoryTree.throughoutAll_ofPaths hfiles (fun texts h text hmem => ?_) hperm
    exact ⟨((hfiles texts h).2 text hmem).1, hlines text ((htexts texts h).2 text hmem).2⟩

theorem Report.tree_mirrors_survey_grove :
    grove.top.isWellFormed ∧ Settings.standard.walk.Plain ∧
      rootPlace grove (Text.bytes "/") = .ok [] ∧
      (∀ name ∈ grove.namesBelow [], Path.isText name) ∧
      (∀ text, Text.bytes text ∈ grove.namesBelow [] → '\\' ∉ text.toList) ∧
      (∀ text, Text.bytes text ∈ grove.namesBelow [] →
        '\n' ∉ text.toList ∧ text.toList.getLast? ≠ some '\r') ∧
      ∃ set, survey noTools grove .standard (Text.bytes "/") = .ok (.ok set) ∧
        (ofRecords .standard set).tree.filePaths = set.toList.map Record.path ∧
        DirectoryTree.parse (ofRecords .standard set).treeView =
          .ok (ofRecords .standard set).tree := by
  have hfs : grove.top.isWellFormed := by decide
  have hplain : Settings.standard.walk.Plain := ⟨rfl, rfl⟩
  have hroot : rootPlace grove (Text.bytes "/") = .ok [] := by cbv
  have htext : ∀ name ∈ grove.namesBelow [], Path.isText name := by decide
  have hbelow : grove.namesBelow [] = ["src", "z.go", "build", "build.py", "lib.go", "lib", "a.ts",
    "build", "out.go", "vault", "b.go", "README"].map Text.bytes := rfl
  have hnames : ∀ text, Text.bytes text ∈ grove.namesBelow [] → '\\' ∉ text.toList ∧
      '\n' ∉ text.toList ∧ text.toList.getLast? ≠ some '\r' := by
    intro text h
    rw [hbelow, List.mem_map_of_injective Text.bytes_injective] at h
    revert text
    decide
  obtain ⟨hsettled, hall⟩ := tree_mirrors_survey noTools hfs hplain hroot htext
    fun text h => (hnames text h).1
  obtain ⟨set, hset⟩ := hsettled (settled_noTools _)
  obtain ⟨hpaths, hdrawing⟩ := hall set hset
  exact ⟨hfs, hplain, hroot, htext, fun text h => (hnames text h).1,
    fun text h => (hnames text h).2, set, hset, hpaths,
    hdrawing fun text h => (hnames text h).2⟩

/-- A file whose name ends with a character that takes four bytes, and one whose name is no text. -/
def misordered : FileSystem where
  top := .directory .free [
    (Text.bytes "a😀.go", .file true []),
    ([0x61, 0xFF, 0x2E, 0x67, 0x6F], .file true [])]
  current := []

/-- What is shown of the second file comes before the name of the first one, and so the tree lists
the two in another order than the records. In another file system a directory that cannot be listed
is a leaf. -/
theorem Report.tree_reorders_survey :
    (∃ set, survey noTools misordered .standard (Text.bytes "/") = .ok (.ok set) ∧
      set.toList.map Record.path = ["a😀.go", "a\uFFFD.go"] ∧
      (ofRecords .standard set).tree.filePaths = ["a\uFFFD.go", "a😀.go"]) ∧
    vaulted.IsDirectoryAt [Text.bytes "vault"] ∧
    ∃ set, survey noTools vaulted .standard (Text.bytes "/") = .ok (.ok set) ∧
      (ofRecords .standard set).tree.filePaths = ["vault"] := by
  let found : List Finding := [.file (Text.bytes "/a😀.go") "a😀.go",
    .file [0x2F, 0x61, 0xFF, 0x2E, 0x67, 0x6F] "a\uFFFD.go"]
  have hfound : findings misordered Settings.standard.walk (Text.bytes "/") = .ok found := by
    show findings misordered .standard (Text.bytes "/") = .ok found
    set_option maxRecDepth 100000 in cbv
  have hrecords : (found.filter (isAdmitted Settings.standard.analysis)).map
      (findingRecord noTools misordered Settings.standard.analysis) =
        [emptyRecord "a😀.go", emptyRecord "a\uFFFD.go"].map .ok := by
    show (found.filter (isAdmitted .standard)).map (findingRecord noTools misordered .standard) = _
    set_option maxRecDepth 100000 in cbv
  obtain ⟨set, hset, htoList⟩ :=
    exists_survey noTools (candidates_of_findings hfound) hrecords (by decide)
  obtain ⟨single, hsingle, hvault⟩ := survey_vaulted
  have hpaths : set.toList.map Record.path = ["a😀.go", "a\uFFFD.go"] := by
    rw [htoList]
    rfl
  refine ⟨⟨set, hset, hpaths, ?_⟩, ⟨_, _, rfl⟩, single, hsingle, ?_⟩
  · have hparts : [["a\uFFFD.go"], ["a😀.go"]].Pairwise (Parts (· < ·)) :=
      List.pairwise_pair.2 (parts_cons (by decide) [] [])
    refine DirectoryTree.filePaths_ofPaths hparts (by decide) ?_
    rw [hpaths]
    exact (List.mergeSort_perm _ _).trans (List.Perm.swap _ _ _)
  · have hparts : [["vault"]].Pairwise (Parts (· < ·)) := List.pairwise_singleton _ _
    refine DirectoryTree.filePaths_ofPaths hparts (by decide) ?_
    rw [hvault]
    exact List.mergeSort_perm _ _

end SourceAtlas
