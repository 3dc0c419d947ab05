import SourceAtlas.Proofs.LossyDecoding
import SourceAtlas.Proofs.Places
import SourceAtlas.Proofs.RecordInvariant

/-!
The size of a file in its record.

* `Metadata.sizes_collect`: names are collected without a change to the sizes.
* `Analysis.readBounded_of_read`: a file is read if it can be and is not too large.
* `Analysis.analyzeFile_counts_raw_bytes`: every file that is read has the number of its bytes and,
  though the lines are counted in the decoded text, the number of its line feeds in its record.
-/

namespace SourceAtlas

namespace Metadata

theorem sizes_note (m : Metadata) (n : Node) :
    (m.note n).byteSize = m.byteSize ∧ (m.note n).lineCount = m.lineCount := by
  unfold note
  split
  · exact ⟨rfl, rfl⟩
  · split <;> exact ⟨rfl, rfl⟩

theorem sizes_collect (m : Metadata) (nodes : List Node) :
    (m.collect nodes).byteSize = m.byteSize ∧ (m.collect nodes).lineCount = m.lineCount := by
  induction nodes generalizing m with
  | nil => exact ⟨rfl, rfl⟩
  | cons n nodes ih =>
    obtain ⟨hbytes, hlines⟩ := ih (m.note n)
    obtain ⟨hbytes', hlines'⟩ := m.sizes_note n
    exact ⟨hbytes.trans hbytes', hlines.trans hlines'⟩

end Metadata

theorem FileSystem.find_of_read {fs : FileSystem} {path : OsText} {bytes : List UInt8}
    (h : fs.read path = .ok bytes) : ∃ readable, fs.find path = .ok (.file readable bytes) := by
  unfold read at h
  split at h
  · cases h
  · rename_i readable found hfind
    split at h
    · cases h
      exact ⟨readable, hfind⟩
    · cases h
  · cases h
  · cases h

namespace Analysis

/-- A file is read if it can be and is not too large. -/
theorem readBounded_of_read {fs : FileSystem} {settings : AnalysisSettings} {path : OsText}
    {bytes : List UInt8} (hread : fs.read path = .ok bytes)
    (hsize : bytes.length ≤ settings.maxFileBytes) :
    readBounded fs settings path = .ok bytes := by
  obtain ⟨readable, hfind⟩ := FileSystem.find_of_read hread
  have hnot : ¬ settings.maxFileBytes < (Item.file readable bytes).size := Nat.not_lt.2 hsize
  unfold readBounded
  rw [hfind]
  dsimp only
  rw [if_neg hnot, hread]

/-- **Sizes are those of the raw bytes.**  The record of a file that can be read and is not too
large has the number of its bytes, and one line more than there are line feeds among them.  Neither
the extension of the file nor what else is in it makes a difference.  There is such a record, unless
the file is handed to an interpreter that prints numbers that are too large. -/
theorem analyzeFile_counts_raw_bytes (tools : Toolchain) {fs : FileSystem}
    {settings : AnalysisSettings} {path : OsText} {bytes : List UInt8}
    (hread : fs.read path = .ok bytes) (hsize : bytes.length ≤ settings.maxFileBytes)
    (name : String) :
    (∃ record, analyzeFile tools fs settings path name = .ok record ∧
      record.metadata.byteSize = bytes.length ∧
      record.metadata.lineCount = bytes.count 0x0A + 1) ∨
    ∃ crash, analyzeFile tools fs settings path name = .error crash ∧
      settings.languageOf? path = some .python ∧ settings.interpreter.enabled = true ∧
      (tools.interpreter settings.interpreter.command (Text.Utf8.decodeLossy bytes)).Overflows
        settings.interpreter.seconds (Text.Utf8.decodeLossy bytes) crash := by
  have hbounded := readBounded_of_read hread hsize
  have hlines := Text.Utf8.countLines_decodeLossy bytes
  unfold analyzeFile
  cases settings.languageOf? path with
  | none =>
    refine Or.inl ⟨_, rfl, ?_⟩
    dsimp only [Record.failed]
    rw [rawMetadata, hbounded]
    exact ⟨rfl, hlines⟩
  | some language =>
    dsimp only
    rw [hbounded]
    dsimp only
    cases hrecord : analyzeContent tools settings name language (Text.Utf8.decodeLossy bytes)
        bytes.length with
    | ok record =>
      obtain ⟨strategy, nodes, -, rfl⟩ := exists_of_analyzeContent hrecord
      obtain ⟨hbytes, hcount⟩ :=
        (Metadata.ofContent (Text.Utf8.decodeLossy bytes) bytes.length).sizes_collect nodes
      exact Or.inl ⟨_, rfl, hbytes, hcount.trans hlines⟩
    | error crash =>
      obtain ⟨rfl, henabled, hoverflows⟩ := analyzeContent_eq_error_iff.1 hrecord
      exact Or.inr ⟨crash, rfl, rfl, henabled, hoverflows⟩

/-- Characters are cut short before a line feed and at the end, in a file of a known language and in
one without an extension. -/
theorem analyzeFile_counts_raw_bytes_truncated :
    let bytes : List UInt8 := [0xE2, 0x82, 0x0A, 0xFF, 0x0A, 0xF0, 0x9F]
    let fs : FileSystem := ⟨.folder [("a.go", .file true bytes), ("notes", .file true bytes)], []⟩
    let tools : Toolchain := ⟨fun _ _ => none, fun _ _ => .notStarted .notFound⟩
    bytes.length ≤ AnalysisSettings.standard.maxFileBytes ∧
      ∀ name ∈ ["a.go", "notes"], fs.read (Text.bytes name) = .ok bytes ∧
        ∃ record, analyzeFile tools fs .standard (Text.bytes name) name = .ok record ∧
          record.metadata.byteSize = 7 ∧ record.metadata.lineCount = 3 := by
  intro bytes fs tools
  have hread : ∀ name ∈ ["a.go", "notes"], fs.read (Text.bytes name) = .ok bytes := by
    intro name hname
    rcases List.mem_pair.1 hname with rfl | rfl <;> cbv
  have hsize : bytes.length ≤ AnalysisSettings.standard.maxFileBytes := by decide
  refine ⟨hsize, fun name hname => ⟨hread name hname, ?_⟩⟩
  rcases analyzeFile_counts_raw_bytes tools (hread name hname) hsize name with
    hrecord | ⟨crash, -, -, -, body, ⟨_, _, _, _, hnever, _⟩, -⟩
  · exact hrecord
  · cases hnever

/-- A Python file of two lines. -/
def twoLines : FileSystem where
  top := .folder [("a.py", .file true (Text.bytes "a\nb"))]
  current := []

/-- A run of the interpreter that prints the largest column there is, in the second line. -/
def farColumn : Interpreter.Outcome :=
  .ended 20 (.exited 0) ("\x7b\"body\": [\x7b\"type\": \"Expr\", \"lineno\": 2, " ++
    "\"col_offset\": 18446744073709551615\x7d]\x7d\n") ""

/-- A file that can be read and is small has no record, and so nothing is counted. -/
theorem analyzeFile_counts_nothing :
    twoLines.read (Text.bytes "a.py") = .ok (Text.bytes "a\nb") ∧
      (Text.bytes "a\nb").length ≤ AnalysisSettings.standard.maxFileBytes ∧
      analyzeFile ⟨fun _ _ => none, fun _ _ => farColumn⟩ twoLines .standard (Text.bytes "a.py")
        "a.py" = .error .offsetOverflow := by
  refine ⟨by cbv, by decide, ?_⟩
  set_option maxRecDepth 100000 in cbv

end Analysis

end SourceAtlas
