import Mathlib
import SourceAtlas.Analysis.File
import SourceAtlas.Proofs.Fallback

/-!
What holds of the record of every file.

* `Metadata.mem_names_collect`: the sets of names hold what the units declare.
* `Analysis.exists_of_analyzeContent`, `Analysis.analyzeFile_cases`: the two kinds of records that
  come out, whatever the file is and whatever the tools answer.
* `Record.Sound`: units or an error, the strategy that fits the language, and the names that fit the
  units.
* `Analysis.analyzeFile_eq_error_iff`: when there is no record. `Toolchain.Settled`: this does not
  happen.
* `Analysis.sound_analyzeFile`: all this holds of every record, and every file has one, unless the
  interpreter prints numbers that are too large.
-/

namespace SourceAtlas

/-! ## names -/

/-- A unit of some family has a name of its own. -/
def Node.Declares (n : Node) (family : Family) (name : String) : Prop :=
  n.kind.family? = some family ∧ n.name = name ∧ name ≠ anonymous

namespace Metadata

/-- The names in a family. -/
def names (m : Metadata) : Family → NameSet
  | .functions => m.functionNames
  | .classes => m.classNames
  | .imports => m.importNames

/-- One unit adds the name that it declares, to the set of its own family. -/
theorem mem_names_note {m : Metadata} {n : Node} {family : Family} {name : String} :
    name ∈ (m.note n).names family ↔ name ∈ m.names family ∨ n.Declares family name := by
  unfold note
  split
  · rename_i hanonymous
    have hname : n.name = anonymous := by simpa [Node.isAnonymous] using hanonymous
    have hnot : ¬ n.Declares family name := by
      rintro ⟨-, rfl, hne⟩
      exact hne hname
    simp [hnot]
  · rename_i hnamed
    have hname : n.name ≠ anonymous := by simpa [Node.isAnonymous] using hnamed
    have hdeclares : n.Declares family name ↔ n.kind.family? = some family ∧ name = n.name := by
      constructor
      · rintro ⟨hfamily, rfl, -⟩
        exact ⟨hfamily, rfl⟩
      · rintro ⟨hfamily, rfl⟩
        exact ⟨hfamily, rfl, hname⟩
    rw [hdeclares]
    split <;> rename_i hfamily <;> cases family <;> simp [names, hfamily, or_comm]

/-- All units together add the names that they declare. -/
theorem mem_names_collect {m : Metadata} {nodes : List Node} {family : Family} {name : String} :
    name ∈ (m.collect nodes).names family ↔
      name ∈ m.names family ∨ ∃ n ∈ nodes, n.Declares family name := by
  induction nodes generalizing m with
  | nil => simp [collect]
  | cons n nodes ih =>
    have hstep : m.collect (n :: nodes) = (m.note n).collect nodes := rfl
    rw [hstep, ih, mem_names_note, or_assoc]
    simp

/-- No names are known yet. -/
def Nameless (m : Metadata) : Prop := ∀ family, m.names family = ∅

theorem nameless_ofSize (lineCount byteSize : Nat) : (ofSize lineCount byteSize).Nameless := by
  intro family
  cases family <;> rfl

theorem nameless_ofContent (content : String) (byteSize : Nat) :
    (ofContent content byteSize).Nameless :=
  nameless_ofSize _ _

theorem nameless_sizeMetadata (fs : FileSystem) (path : OsText) :
    (Analysis.sizeMetadata fs path).Nameless := by
  unfold Analysis.sizeMetadata
  split
  · exact nameless_ofSize _ _
  · exact nameless_ofSize 0 0

theorem nameless_rawMetadata (fs : FileSystem) (settings : AnalysisSettings) (path : OsText) :
    (Analysis.rawMetadata fs settings path).Nameless := by
  unfold Analysis.rawMetadata
  split
  · exact nameless_ofContent _ _
  · exact nameless_sizeMetadata fs path

end Metadata

/-! ## the two kinds of records -/

/-- The languages that a strategy is for. -/
def Strategy.IsFor (settings : AnalysisSettings) (language : Language) : Strategy → Prop
  | .grammar => language = .javaScript ∨ language = .typeScript
  | .interpreter => language = .python ∧ settings.interpreter.enabled = true
  | .patterns => True

namespace Analysis

theorem isFor_of_primaryStrategy? {settings : AnalysisSettings} {language : Language}
    {strategy : Strategy} (h : primaryStrategy? settings language = some strategy) :
    strategy.IsFor settings language := by
  unfold primaryStrategy? at h
  split at h
  · cases h
    exact Or.inl rfl
  · cases h
    exact Or.inr rfl
  · split at h
    · rename_i henabled
      cases h
      exact ⟨rfl, henabled⟩
    · cases h
  · cases h

/-- A text that has a record is parsed. A strategy that fails gives way to the line rules. -/
theorem exists_of_analyzeContent {tools : Toolchain} {settings : AnalysisSettings} {path : String}
    {language : Language} {content : String} {byteSize : Nat} {record : Record}
    (h : analyzeContent tools settings path language content byteSize = .ok record) :
    ∃ strategy nodes, strategy.IsFor settings language ∧
      record = .parsed path language strategy nodes (.ofContent content byteSize) := by
  unfold analyzeContent at h
  split at h
  · cases h
    exact ⟨.patterns, _, trivial, rfl⟩
  · rename_i strategy hprimary
    obtain ⟨found, -, rfl⟩ := Except.map_eq_ok_iff.1 h
    cases found with
    | ok nodes => exact ⟨strategy, nodes, isFor_of_primaryStrategy? hprimary, rfl⟩
    | error failure => exact ⟨.patterns, _, trivial, rfl⟩

/-- Only a run of the interpreter leaves a text without a record. -/
theorem analyzeContent_eq_error_iff {tools : Toolchain} {settings : AnalysisSettings}
    {path : String} {language : Language} {content : String} {byteSize : Nat} {crash : Crash} :
    analyzeContent tools settings path language content byteSize = .error crash ↔
      language = .python ∧ settings.interpreter.enabled = true ∧
        (tools.interpreter settings.interpreter.command content).Overflows
          settings.interpreter.seconds content crash := by
  constructor
  · intro h
    cases hprimary : primaryStrategy? settings language with
    | none =>
      rw [analyzeContent, hprimary] at h
      cases h
    | some strategy =>
      cases strategy with
      | interpreter =>
        obtain ⟨rfl, henabled⟩ := isFor_of_primaryStrategy? hprimary
        exact ⟨rfl, henabled, (analyzeContent_python_eq_error_iff path byteSize henabled).1 h⟩
      | grammar =>
        rw [analyzeContent_of_primaryStrategy? tools settings path content byteSize hprimary] at h
        cases h
      | patterns =>
        rw [analyzeContent_of_primaryStrategy? tools settings path content byteSize hprimary] at h
        cases h
  · rintro ⟨rfl, henabled, h⟩
    exact (analyzeContent_python_eq_error_iff path byteSize henabled).2 h

variable {tools : Toolchain} {fs : FileSystem} {settings : AnalysisSettings} {path : OsText}
  {name : String}

/-- A file that has a record is parsed if its language is known and its bytes can be read. Otherwise
there is an error. -/
theorem analyzeFile_cases {record : Record}
    (h : analyzeFile tools fs settings path name = .ok record) :
    (∃ language bytes strategy nodes metadata,
      settings.languageOf? path = some language ∧ readBounded fs settings path = .ok bytes ∧
      strategy.IsFor settings language ∧ metadata.Nameless ∧
      record = .parsed name language strategy nodes metadata) ∨
    (∃ failure metadata,
      (settings.languageOf? path = none ∨
        ∃ failure, readBounded fs settings path = .error failure) ∧
      metadata.Nameless ∧
      record = .failed name ((settings.languageOf? path).getD .unknown) failure metadata) := by
  unfold analyzeFile at h
  cases hlanguage : settings.languageOf? path with
  | none =>
    rw [hlanguage] at h
    cases h
    exact .inr ⟨_, _, .inl rfl, Metadata.nameless_rawMetadata fs settings path, rfl⟩
  | some language =>
    rw [hlanguage] at h
    cases hread : readBounded fs settings path with
    | error failure =>
      rw [hread] at h
      cases h
      exact .inr ⟨failure, _, .inr ⟨failure, rfl⟩, Metadata.nameless_sizeMetadata fs path, rfl⟩
    | ok bytes =>
      rw [hread] at h
      obtain ⟨strategy, nodes, hfor, heq⟩ := exists_of_analyzeContent h
      exact .inl ⟨language, bytes, strategy, nodes, _, rfl, rfl, hfor,
        Metadata.nameless_ofContent _ _, heq⟩

/-- There is no record of a Python file that can be read if the interpreter prints numbers that are
too large, and of every other file there is one. -/
theorem analyzeFile_eq_error_iff {crash : Crash} :
    analyzeFile tools fs settings path name = .error crash ↔
      settings.languageOf? path = some .python ∧ settings.interpreter.enabled = true ∧
        ∃ bytes, readBounded fs settings path = .ok bytes ∧
          (tools.interpreter settings.interpreter.command (Text.Utf8.decodeLossy bytes)).Overflows
            settings.interpreter.seconds (Text.Utf8.decodeLossy bytes) crash := by
  unfold analyzeFile
  cases settings.languageOf? path with
  | none => simp
  | some language =>
    cases readBounded fs settings path with
    | error failure => simp
    | ok bytes => simp [analyzeContent_eq_error_iff]

end Analysis

/-- No run of the interpreter prints numbers that are too large. -/
def Toolchain.Settled (tools : Toolchain) (settings : AnalysisSettings) : Prop :=
  ∀ content crash, ¬ (tools.interpreter settings.interpreter.command content).Overflows
    settings.interpreter.seconds content crash

theorem Toolchain.Settled.exists_record {tools : Toolchain} {settings : AnalysisSettings}
    (h : tools.Settled settings) (fs : FileSystem) (path : OsText) (name : String) :
    ∃ record, Analysis.analyzeFile tools fs settings path name = .ok record := by
  cases hrecord : Analysis.analyzeFile tools fs settings path name with
  | ok record => exact ⟨record, rfl⟩
  | error crash =>
    obtain ⟨-, -, bytes, -, hoverflows⟩ := Analysis.analyzeFile_eq_error_iff.1 hrecord
    exact absurd hoverflows (h _ crash)

/-! ## the invariant -/

/-- What holds of the record of the file at a path. -/
structure Record.Sound (fs : FileSystem) (settings : AnalysisSettings) (path : OsText)
    (r : Record) : Prop where
  /-- There is either an error or a body. -/
  outcome : r.error.isSome = !r.body.isSome
  strategy : r.strategy.isSome = r.body.isSome
  grammar : r.strategy = some .grammar → r.language = .javaScript ∨ r.language = .typeScript
  interpreter : r.strategy = some .interpreter →
    r.language = .python ∧ settings.interpreter.enabled = true
  patterns : r.body.isSome → ¬ (r.language = .javaScript ∨ r.language = .typeScript) →
    ¬ (r.language = .python ∧ settings.interpreter.enabled = true) → r.strategy = some .patterns
  language : r.language = (settings.languageOf? path).getD .unknown
  /-- Only what cannot be named or read has an error. -/
  body : r.body.isSome ↔ (settings.languageOf? path).isSome ∧
    ∃ bytes, Analysis.readBounded fs settings path = .ok bytes
  error : r.error.isSome → ∀ family, r.metadata.names family = ∅
  names : ∀ nodes, r.body = some nodes → ∀ family name,
    name ∈ r.metadata.names family ↔ ∃ n ∈ nodes, n.Declares family name

theorem Record.sound_parsed {fs : FileSystem} {settings : AnalysisSettings} {path : OsText}
    {language : Language} {bytes : List UInt8} {strategy : Strategy} {metadata : Metadata}
    (hlanguage : settings.languageOf? path = some language)
    (hread : Analysis.readBounded fs settings path = .ok bytes)
    (hfor : strategy.IsFor settings language) (hnameless : metadata.Nameless) (name : String)
    (nodes : List Node) :
    (Record.parsed name language strategy nodes metadata).Sound fs settings path where
  outcome := rfl
  strategy := rfl
  grammar := by
    intro h
    cases h
    exact hfor
  interpreter := by
    intro h
    cases h
    exact hfor
  patterns := by
    intro _ hgrammar hinterpreter
    cases strategy with
    | grammar => exact absurd hfor hgrammar
    | interpreter => exact absurd hfor hinterpreter
    | patterns => rfl
  language := by
    rw [hlanguage]
    rfl
  body := by simp [Record.parsed, hlanguage, hread]
  error := by
    intro h
    cases h
  names := by
    intro found hfound family x
    cases hfound
    have hnone : ¬ x ∈ metadata.names family := by simp [hnameless family]
    rw [Record.parsed, Metadata.mem_names_collect, or_iff_right hnone]

theorem Record.sound_failed {fs : FileSystem} {settings : AnalysisSettings} {path : OsText}
    {metadata : Metadata}
    (hcause : settings.languageOf? path = none ∨
      ∃ failure, Analysis.readBounded fs settings path = .error failure)
    (hnameless : metadata.Nameless) (name : String) (failure : FileFailure) :
    (Record.failed name ((settings.languageOf? path).getD .unknown) failure metadata).Sound
      fs settings path where
  outcome := rfl
  strategy := rfl
  grammar := by
    intro h
    cases h
  interpreter := by
    intro h
    cases h
  patterns := by
    intro h
    cases h
  language := rfl
  body := by
    constructor
    · intro h
      cases h
    · rintro ⟨hlanguage, bytes, hread⟩
      rcases hcause with hnone | ⟨failure, herror⟩
      · simp [hnone] at hlanguage
      · simp [herror] at hread
  error := fun _ => hnameless
  names := by
    intro nodes h
    cases h

/-- **The record of every file is sound.**  Whatever the file is, whatever syntax trees there are
and whatever the interpreter does, a record that comes out is sound.  The analysis breaks off
exactly if the file is read, its language is Python, the interpreter is enabled, and its run prints
a statement with numbers that are too large. -/
theorem Analysis.sound_analyzeFile (tools : Toolchain) (fs : FileSystem)
    (settings : AnalysisSettings) (path : OsText) (name : String) :
    (∀ record, analyzeFile tools fs settings path name = .ok record →
      record.Sound fs settings path) ∧
    ∀ crash, analyzeFile tools fs settings path name = .error crash ↔
      settings.languageOf? path = some .python ∧ settings.interpreter.enabled = true ∧
        ∃ bytes, readBounded fs settings path = .ok bytes ∧
          (tools.interpreter settings.interpreter.command (Text.Utf8.decodeLossy bytes)).Overflows
            settings.interpreter.seconds (Text.Utf8.decodeLossy bytes) crash := by
  refine ⟨fun record h => ?_, fun crash => analyzeFile_eq_error_iff⟩
  rcases analyzeFile_cases h with
    ⟨language, bytes, strategy, nodes, metadata, hlanguage, hread, hfor, hnameless, rfl⟩ |
    ⟨failure, metadata, hcause, hnameless, rfl⟩
  · exact Record.sound_parsed hlanguage hread hfor hnameless name nodes
  · exact Record.sound_failed hcause hnameless name failure

/-- A Python file with an import. -/
def oneImport : FileSystem where
  top := .directory .free [(Text.bytes "a.py", .file true (Text.bytes "from . import b\n"))]
  current := []

/-- A run of the interpreter that prints an import of some level. -/
def importRun (level : String) : Interpreter.Outcome :=
  .ended 20 (.exited 0)
    ("\x7b\"body\": [\x7b\"type\": \"ImportFrom\", \"level\": " ++ level ++ "\x7d]\x7d\n") ""

theorem Analysis.sound_analyzeFile_import :
    let tools : Toolchain := ⟨fun _ _ => none, fun _ _ => importRun "1"⟩
    ∃ record, analyzeFile tools oneImport .standard (Text.bytes "a.py") "a.py" = .ok record ∧
      record.Sound oneImport .standard (Text.bytes "a.py") ∧
      record.strategy = some .interpreter := by
  intro tools
  have hstrategy : (analyzeFile tools oneImport .standard (Text.bytes "a.py") "a.py").map
      Record.strategy = .ok (some .interpreter) := by
    set_option maxRecDepth 100000 in cbv
  obtain ⟨record, hrecord, hinterpreter⟩ := Except.map_eq_ok_iff.1 hstrategy
  obtain ⟨hsound, -⟩ :=
    sound_analyzeFile tools oneImport .standard (Text.bytes "a.py") "a.py"
  exact ⟨record, hrecord, hsound record hrecord, hinterpreter⟩

/-- An import of as many levels as half a word counts, for which no text has enough dots: there is
no record of the file, not even one with an error. -/
theorem Analysis.analyzeFile_breaks_off :
    analyzeFile ⟨fun _ _ => none, fun _ _ => importRun "9223372036854775808"⟩ oneImport .standard
      (Text.bytes "a.py") "a.py" = .error .textOverflow := by
  set_option maxRecDepth 100000 in cbv

end SourceAtlas
