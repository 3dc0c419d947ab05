import SourceAtlas.Proofs.RecordInvariant
import SourceAtlas.Proofs.RecordSet
import SourceAtlas.Proofs.WalkDepth
import SourceAtlas.Walk.Records

/-!
The records of a walk one by one and as a set.

* `Analysis.path_of_analyzeFile`: a record stands under the name it was asked for.
* `forkMap_eq_mapM`: halves that do not wait for each other come to the same as one element after
  the other.
* `findings_eq_visit`: what is found below a root.
* `survey_eq_walkRecords`: the set has the records of the sequence, in the same order, exactly if no
  two of them stand under one name. Links may lead anywhere, back to a directory around them
  included.
-/

namespace SourceAtlas

/-! ## one record -/

theorem Analysis.path_of_analyzeFile {tools : Toolchain} {fs : FileSystem}
    {settings : AnalysisSettings} {path : OsText} {name : String} {record : Record}
    (h : analyzeFile tools fs settings path name = .ok record) : record.path = name := by
  rcases analyzeFile_cases h with
    ⟨language, bytes, strategy, nodes, metadata, -, -, -, -, rfl⟩ | ⟨failure, metadata, -, -, rfl⟩
  · rfl
  · rfl

theorem path_of_findingRecord {tools : Toolchain} {fs : FileSystem} {settings : AnalysisSettings}
    {f : Finding} {record : Record} (h : findingRecord tools fs settings f = .ok record) :
    record.path = f.relative := by
  cases f with
  | file path relative => exact Analysis.path_of_analyzeFile h
  | unreadable relative message =>
    cases h
    rfl

theorem Toolchain.Settled.exists_records {tools : Toolchain} {settings : AnalysisSettings}
    (h : tools.Settled settings) (fs : FileSystem) (found : List Finding) :
    ∃ records : List Record, found.map (findingRecord tools fs settings) = records.map .ok := by
  have hall : ∀ f ∈ found, ∃ record, findingRecord tools fs settings f = .ok record := by
    intro f _
    cases f with
    | file path relative => exact h.exists_record fs path relative
    | unreadable relative message => exact ⟨_, rfl⟩
  obtain ⟨records, hrecords⟩ := exists_mapM_eq_ok_iff.2 hall
  exact ⟨records, mapM_eq_ok_iff.1 hrecords⟩

theorem map_path_of_findingRecord {tools : Toolchain} {fs : FileSystem}
    {settings : AnalysisSettings} {found : List Finding} {records : List Record}
    (h : found.map (findingRecord tools fs settings) = records.map .ok) :
    records.map Record.path = found.map Finding.relative := by
  induction found generalizing records with
  | nil =>
    rw [List.map_nil, eq_comm, List.map_eq_nil_iff] at h
    rw [h]
    rfl
  | cons f found ih =>
    obtain ⟨record, rest, rfl, hrecord, hrest⟩ := List.map_eq_cons_iff.1 h.symm
    rw [List.map_cons, List.map_cons, ih hrest.symm, path_of_findingRecord hrecord.symm]

/-! ## what is found below a root -/

section Root

variable {fs : FileSystem} {root : OsText} {place : Place}

theorem rootPlace_eq_ok_iff :
    rootPlace fs root = .ok place ↔
      fs.locate root = .ok place ∧
        ∃ mode items, fs.top.at? place = some (.directory mode items) ∧ mode.lists = true := by
  unfold rootPlace
  cases fs.locate root with
  | error cause => simp
  | ok there =>
    constructor
    · intro h
      dsimp only at h
      split at h
      · rename_i mode items hat
        split at h
        · rename_i hlists
          cases h
          exact ⟨rfl, mode, items, hat, hlists⟩
        · cases h
      · cases h
    · rintro ⟨hthere, mode, items, hat, hlists⟩
      cases hthere
      simp [hat, hlists]

theorem within_of_rootPlace (h : rootPlace fs root = .ok place) (settings : WalkSettings) :
    Walk.Within ⟨fs, settings, root⟩ (Walk.start ⟨fs, settings, root⟩ place) := by
  obtain ⟨hlocate, mode, items, hat, -⟩ := rootPlace_eq_ok_iff.1 h
  exact Walk.within_start hlocate ⟨mode, items, hat⟩

theorem findings_eq_visit (h : rootPlace fs root = .ok place) (settings : WalkSettings) :
    findings fs settings root =
      .ok (if isStandardInput root then []
        else Walk.visit ⟨fs, settings, root⟩ (Walk.depthBound fs)
          (Walk.start ⟨fs, settings, root⟩ place)) := by
  rw [findings, h]
  dsimp only
  split <;> rfl

/-- Where names are text and all links can be looked behind, nothing is found twice. -/
theorem nodup_relative_findings (hfs : fs.top.isWellFormed) (htext : fs.top.hasTextNames)
    {settings : WalkSettings} {found : List Finding} (h : findings fs settings root = .ok found)
    (hclosed : Walk.closedLink ∉ found) : (found.map Finding.relative).Nodup := by
  cases hroot : rootPlace fs root with
  | error e => simp [findings, hroot] at h
  | ok place =>
    rw [findings_eq_visit hroot, Except.ok.injEq] at h
    subst h
    split at hclosed
    · rename_i hinput
      simp [hinput]
    · rename_i hinput
      rw [if_neg hinput]
      exact Walk.nodup_relative_visit hfs htext place hclosed

end Root

/-! ## all records -/

/-- It does not matter where a list is cut. -/
theorem forkMap_eq_mapM {α β ε : Type} (f : α → Except ε β) (cuts : Nat) (xs : List α) :
    forkMap f cuts xs = xs.mapM f := by
  induction cuts generalizing xs with
  | zero => rfl
  | succ cuts ih =>
    rw [forkMap]
    split
    · rfl
    · conv_rhs => rw [← List.take_append_drop (xs.length / 2) xs, List.mapM_append]
      rw [ih, ih]
      cases (xs.take (xs.length / 2)).mapM f with
      | error e => cases (xs.drop (xs.length / 2)).mapM f <;> rfl
      | ok ys => cases (xs.drop (xs.length / 2)).mapM f <;> rfl

section Records

variable (tools : Toolchain) {fs : FileSystem} {settings : Settings} {root : OsText}
  {found : List Finding}

theorem candidates_of_findings (h : findings fs settings.walk root = .ok found) :
    candidates fs settings root = .ok (found.filter (isAdmitted settings.analysis)) := by
  rw [candidates, h]

theorem walkRecords_of_candidates (h : candidates fs settings root = .ok found) :
    walkRecords tools fs settings root =
      .ok (found.map (findingRecord tools fs settings.analysis)) := by
  rw [walkRecords, h]

/-- The set is made of the records of all candidates, whether or not they are made in parallel. -/
theorem survey_of_candidates (h : candidates fs settings root = .ok found) :
    survey tools fs settings root =
      .ok ((found.mapM (findingRecord tools fs settings.analysis)).map .ofList) := by
  rw [survey, h]
  dsimp only
  split
  · rw [forkMap_eq_mapM]
  · rfl

/-- If no analysis breaks off and no two records stand under one path, the set lists them all. -/
theorem exists_survey {records : List Record} (h : candidates fs settings root = .ok found)
    (hrecords : found.map (findingRecord tools fs settings.analysis) = records.map .ok)
    (hnodup : (records.map Record.path).Nodup) :
    ∃ set, survey tools fs settings root = .ok (.ok set) ∧ set.toList = records := by
  refine ⟨.ofList records, ?_, RecordSet.toList_ofList_of_nodup hnodup⟩
  rw [survey_of_candidates tools h, mapM_eq_ok_iff.2 hrecords]
  rfl

end Records

/-- **The set has the records of the sequence.**  The walk below a directory comes to an end,
however links lead, and the depth it is given cuts nothing off.  Of what it finds, all that is
admitted is analysed, one finding after the other or in parallel with the same result.  If no
analysis breaks off, and none does unless the interpreter prints numbers that are too large, the set
lists the records exactly as they come one by one if and only if no two of the findings stand under
one relative path.  That is so if names are text and all links can be looked behind. -/
theorem survey_eq_walkRecords (tools : Toolchain) {fs : FileSystem} (hfs : fs.top.isWellFormed)
    (settings : Settings) {root : OsText} {place : Place} (hroot : rootPlace fs root = .ok place) :
    let w : Walk := ⟨fs, settings.walk, root⟩
    let analyze := findingRecord tools fs settings.analysis
    (∀ visits, (w.start place :: visits).IsChain w.Enters → visits.length < Walk.depthBound fs) ∧
    (∀ depth, Walk.depthBound fs ≤ depth →
      w.visit depth (w.start place) = w.visit (Walk.depthBound fs) (w.start place)) ∧
    ∃ found, findings fs settings.walk root = .ok found ∧
      let admitted := found.filter (isAdmitted settings.analysis)
      walkRecords tools fs settings root = .ok (admitted.map analyze) ∧
      survey tools fs settings root = .ok ((admitted.mapM analyze).map .ofList) ∧
      (tools.Settled settings.analysis →
        ∃ records : List Record, admitted.map analyze = records.map .ok) ∧
      (∀ records, admitted.map analyze = records.map .ok →
        records.map Record.path = admitted.map Finding.relative ∧
        ∃ set, survey tools fs settings root = .ok (.ok set) ∧
          (set.toList = records ↔ (admitted.map Finding.relative).Nodup) ∧
          ((admitted.map Finding.relative).Nodup → ∀ n, records.take n <+: set.toList)) ∧
      (fs.top.hasTextNames → Walk.closedLink ∉ found →
        (admitted.map Finding.relative).Nodup) := by
  intro w analyze
  have hwithin := within_of_rootPlace hroot settings.walk
  have hbound := w.remaining_lt_depthBound (w.start place)
  refine ⟨fun visits hchain => Walk.length_lt_depthBound hfs hwithin hchain, ?_, ?_⟩
  · intro depth hdepth
    exact Walk.visit_eq_visit hfs hwithin (Nat.lt_of_lt_of_le hbound hdepth) hbound
  · have hfound := findings_eq_visit hroot settings.walk
    have hadmitted := candidates_of_findings hfound
    have hsurvey := survey_of_candidates tools hadmitted
    refine ⟨_, hfound, walkRecords_of_candidates tools hadmitted, hsurvey,
      fun hsettled => hsettled.exists_records fs _, ?_, ?_⟩
    · intro records hrecords
      have hpaths := map_path_of_findingRecord hrecords
      rw [mapM_eq_ok_iff.2 hrecords] at hsurvey
      have hset : (RecordSet.ofList records).toList = records ↔ _ := RecordSet.toList_ofList_eq_iff
      rw [hpaths] at hset
      refine ⟨hpaths, _, hsurvey, hset, fun hnodup n => ?_⟩
      rw [hset.2 hnodup]
      exact List.take_prefix n _
    · intro htext hclosed
      exact (nodup_relative_findings hfs htext hfound hclosed).sublist (List.filter_sublist.map _)

/-- Links that lead to each other's directories, to the root, to nothing and to themselves. -/
def tangled : FileSystem where
  top := .folder [
    ("a", .folder [("b", .link (Text.bytes "../c")), ("x.go", .file true [])]),
    ("c", .folder [("up", .link (Text.bytes "..")), ("to_a", .link (Text.bytes "../a"))]),
    ("self", .link (Text.bytes "self")),
    ("nowhere", .link (Text.bytes "missing"))]
  current := []

/-- The directories `a` and `c` are come to by their names and once more through a link, and the
links in them lead back. -/
def tangledFindings : List Finding := [
  .unreadable "a/b/to_a" "File system loop found: /a/b/to_a points to an ancestor /a",
  .unreadable "a/b/up" "File system loop found: /a/b/up points to an ancestor /",
  .file (Text.bytes "/a/x.go") "a/x.go",
  .unreadable "c/to_a/b" "File system loop found: /c/to_a/b points to an ancestor /c",
  .file (Text.bytes "/c/to_a/x.go") "c/to_a/x.go",
  .unreadable "c/up" "File system loop found: /c/up points to an ancestor /",
  .unreadable "nowhere"
    "IO error for operation on /nowhere: No such file or directory (os error 2)",
  .unreadable "self"
    "IO error for operation on /self: Too many levels of symbolic links (os error 40)"]

theorem findings_tangled :
    findings tangled { WalkSettings.standard with followLinks := true } (Text.bytes "/") =
      .ok tangledFindings := by
  set_option maxRecDepth 100000 in cbv

/-- A toolchain without any tool. -/
def noTools : Toolchain := ⟨fun _ _ => none, fun _ _ => .notStarted .notFound⟩

theorem settled_noTools (settings : AnalysisSettings) : noTools.Settled settings := by
  rintro content crash ⟨body, ⟨_, _, _, _, hended, -⟩, -⟩
  cases hended

/-- The record of an empty Go file. -/
def emptyRecord (relative : String) : Record :=
  .parsed relative .go .patterns [] (.ofContent "" 0)

/-- The record of an item that cannot be looked into. -/
def unwalkedRecord (relative message : String) : Record :=
  .failed relative .unknown (.unwalked relative message) .blank

def tangledRecords : List Record := [
  unwalkedRecord "a/b/to_a" "File system loop found: /a/b/to_a points to an ancestor /a",
  unwalkedRecord "a/b/up" "File system loop found: /a/b/up points to an ancestor /",
  emptyRecord "a/x.go",
  unwalkedRecord "c/to_a/b" "File system loop found: /c/to_a/b points to an ancestor /c",
  emptyRecord "c/to_a/x.go",
  unwalkedRecord "c/up" "File system loop found: /c/up points to an ancestor /",
  unwalkedRecord "nowhere"
    "IO error for operation on /nowhere: No such file or directory (os error 2)",
  unwalkedRecord "self"
    "IO error for operation on /self: Too many levels of symbolic links (os error 40)"]

theorem records_tangled :
    (tangledFindings.filter (isAdmitted .standard)).map (findingRecord noTools tangled .standard) =
      tangledRecords.map .ok := by
  have hgo : (AnalysisSettings.standard.languageOf? (Text.bytes "/a/x.go")).isSome ∧
      (AnalysisSettings.standard.languageOf? (Text.bytes "/c/to_a/x.go")).isSome := by
    set_option maxRecDepth 100000 in cbv
  have hdirect : Analysis.analyzeFile noTools tangled .standard (Text.bytes "/a/x.go") "a/x.go" =
      .ok (emptyRecord "a/x.go") := by
    set_option maxRecDepth 100000 in cbv
  have hlinked : Analysis.analyzeFile noTools tangled .standard (Text.bytes "/c/to_a/x.go")
      "c/to_a/x.go" = .ok (emptyRecord "c/to_a/x.go") := by
    set_option maxRecDepth 100000 in cbv
  rw [List.filter_eq_self.2 (by simpa [isAdmitted, tangledFindings] using hgo)]
  simp only [tangledFindings, List.map_cons, List.map_nil, findingRecord, hdirect, hlinked]
  rfl

theorem survey_eq_walkRecords_tangled :
    let settings : Settings :=
      { Settings.standard with walk := { WalkSettings.standard with followLinks := true } }
    tangled.top.isWellFormed ∧ rootPlace tangled (Text.bytes "/") = .ok [] ∧
      walkRecords noTools tangled settings (Text.bytes "/") = .ok (tangledRecords.map .ok) ∧
      ∃ set, survey noTools tangled settings (Text.bytes "/") = .ok (.ok set) ∧
        set.toList = tangledRecords := by
  intro settings
  have hfs : tangled.top.isWellFormed := by decide
  have hroot : rootPlace tangled (Text.bytes "/") = .ok [] := by cbv
  obtain ⟨-, -, found, hfound, hwalk, -, -, hall, -⟩ :=
    survey_eq_walkRecords noTools hfs settings hroot
  obtain rfl := Except.ok.inj (findings_tangled.symm.trans hfound)
  obtain ⟨hpaths, set, hset, htoList, -⟩ := hall tangledRecords records_tangled
  refine ⟨hfs, hroot, hwalk.trans (congrArg _ records_tangled), set, hset, htoList.2 ?_⟩
  rw [← hpaths]
  decide

/-- Two files whose names are no text and are shown alike. -/
def lookAlikes : FileSystem where
  top := .directory .free [
    ([0x61, 0xFE, 0x2E, 0x67, 0x6F], .file true []),
    ([0x61, 0xFF, 0x2E, 0x67, 0x6F], .file true [])]
  current := []

/-- Each of the two files has a record of its own in the sequence, and the set leaves out the second
one. -/
theorem survey_omits_lookAlike :
    walkRecords noTools lookAlikes .standard (Text.bytes "/") =
        .ok [.ok (emptyRecord "a\uFFFD.go"), .ok (emptyRecord "a\uFFFD.go")] ∧
      ∃ set, survey noTools lookAlikes .standard (Text.bytes "/") = .ok (.ok set) ∧
        set.toList = [emptyRecord "a\uFFFD.go"] := by
  let found : List Finding := [.file [0x2F, 0x61, 0xFE, 0x2E, 0x67, 0x6F] "a\uFFFD.go",
    .file [0x2F, 0x61, 0xFF, 0x2E, 0x67, 0x6F] "a\uFFFD.go"]
  let records := [emptyRecord "a\uFFFD.go", emptyRecord "a\uFFFD.go"]
  have hfound : findings lookAlikes Settings.standard.walk (Text.bytes "/") = .ok found := by
    show findings lookAlikes .standard (Text.bytes "/") = .ok found
    set_option maxRecDepth 100000 in cbv
  have hrecords : (found.filter (isAdmitted Settings.standard.analysis)).map
      (findingRecord noTools lookAlikes Settings.standard.analysis) = records.map .ok := by
    show (found.filter (isAdmitted .standard)).map (findingRecord noTools lookAlikes .standard) = _
    set_option maxRecDepth 100000 in cbv
  have hadmitted := candidates_of_findings hfound
  have hfirst : (RecordSet.ofList records).toList = [emptyRecord "a\uFFFD.go"] :=
    (RecordSet.holds_ofList records).toList_eq
  constructor
  · rw [walkRecords_of_candidates noTools hadmitted, hrecords]
    rfl
  · refine ⟨.ofList records, ?_, hfirst⟩
    rw [survey_of_candidates noTools hadmitted, mapM_eq_ok_iff.2 hrecords]
    rfl

end SourceAtlas
