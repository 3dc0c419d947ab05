import SourceAtlas.Proofs.Outcomes
import SourceAtlas.Proofs.Positions

/-!
The numbers in a dump and what becomes of them.

* `Interpreter.Extent.spanIn`: the span of an extent, in numbers of any size.
* `Interpreter.Fits`: the numbers of a statement that are not too large; `Interpreter.Misfit`: what
  breaks off otherwise.
* `Interpreter.statementNodes_eq_error_iff`, `Interpreter.inRange_of_mem`: one statement.
* `Interpreter.BreaksOff`: the statements of a body up to the first that does not fit.
* `Interpreter.dump_in_range_iff`: a dump gives units exactly if all its statements fit, and then
  their spans are exact.
-/

namespace SourceAtlas

theorem NodeKind.text_ofText (s : String) : (ofText s).text = s := by
  rw [ofText]
  cases hfind : named.find? fun k => k.text == s with
  | none => rfl
  | some k =>
    have htext := List.find?_some hfind
    exact beq_iff_eq.1 htext

namespace Interpreter

/-! ## offsets -/

/-- The offset at which a line of a text begins. A line that does not exist begins at zero. -/
def lineStart (content : String) (line : Nat) : Nat := (Text.lineStarts content)[line - 1]?.getD 0

/-- The span of an extent, each offset being the sum of a line start and a column. -/
def Extent.spanIn (content : String) (extent : Extent) : Span :=
  { startByte := lineStart content extent.startLine + extent.startColumn
    endByte := lineStart content extent.endLine + extent.endColumn
    startLine := extent.startLine, startColumn := extent.startColumn
    endLine := extent.endLine, endColumn := extent.endColumn }

/-- The offsets of a span are words. -/
def HasWords (span : Span) : Prop := span.startByte < offsetBound ∧ span.endByte < offsetBound

instance (span : Span) : Decidable (HasWords span) := inferInstanceAs (Decidable (_ ∧ _))

/-- The span of a statement is exact, or there is none. -/
theorem statementSpan_eq_ite (content : String) (statement : Json) :
    statementSpan (Text.lineStarts content) statement =
      if HasWords ((extentOf statement).spanIn content) then
        .ok ((extentOf statement).spanIn content)
      else .error .offsetOverflow := by
  have hoffset : ∀ line column, offsetOf (Text.lineStarts content) line column =
      if lineStart content line + column < offsetBound then .ok (lineStart content line + column)
      else .error .offsetOverflow := fun _ _ => rfl
  by_cases hstart : lineStart content (extentOf statement).startLine +
      (extentOf statement).startColumn < offsetBound
  · by_cases hstop : lineStart content (extentOf statement).endLine +
        (extentOf statement).endColumn < offsetBound
    · rw [if_pos ⟨hstart, hstop⟩]
      simp only [statementSpan, hoffset, if_pos hstart, if_pos hstop]
      rfl
    · rw [if_neg fun h => hstop h.2]
      simp only [statementSpan, hoffset, if_pos hstart, if_neg hstop]
      rfl
  · rw [if_neg fun h => hstart h.1]
    simp only [statementSpan, hoffset, if_neg hstart]
    rfl

/-! ## names -/

theorem utf8ByteSize_dots (level : Nat) :
    (String.ofList (List.replicate level '.')).utf8ByteSize = level := by
  have hdot : '.'.utf8Size = 1 := by decide
  rw [← Text.length_bytes, Text.bytes_eq_flatMap]
  simp [hdot]

/-- A relative import has a byte for each level and those of its module. -/
theorem utf8ByteSize_fromName (statement : Json) :
    (fromName statement).utf8ByteSize =
      levelOf statement + (moduleOf statement).utf8ByteSize := by
  rw [fromName, String.utf8ByteSize_append, utf8ByteSize_dots]

/-- The name of an import is short enough for a text. -/
def HasText (statement : Json) : Prop :=
  levelOf statement + (moduleOf statement).utf8ByteSize < textBound

theorem relativeModule_eq_error_iff {statement : Json} {crash : Crash} :
    relativeModule statement = .error crash ↔ crash = .textOverflow ∧ ¬ HasText statement := by
  unfold relativeModule
  split
  · rename_i htext
    simp [HasText, htext]
  · rename_i htext
    simp [HasText, htext, eq_comm]

/-- A relative import that has a name has a short one, and so has one without. -/
theorem utf8ByteSize_nameOr_lt {statement : Json} {name : Option String}
    (h : relativeModule statement = .ok name) :
    (Node.nameOr name).utf8ByteSize < textBound := by
  unfold relativeModule at h
  split at h
  · rename_i htext
    rw [← utf8ByteSize_fromName] at htext
    split at h
    · cases h
      decide
    · rename_i hname
      cases h
      rwa [Node.nameOr, if_neg hname]
  · cases h

theorem statementNames_eq_error_iff {type : String} {statement : Json} {crash : Crash} :
    statementNames type statement = .error crash ↔
      type = "ImportFrom" ∧ crash = .textOverflow ∧ ¬ HasText statement := by
  unfold statementNames
  split
  · split <;> simp
  · rw [Except.map_eq_error_iff, relativeModule_eq_error_iff]
    simp
  · rename_i hne
    simpa using fun himport => absurd himport hne

/-! ## statements -/

/-- The numbers of a statement are not too large. Nothing is asked of one without a type. -/
def Fits (content : String) (statement : Json) : Prop :=
  ∀ type, nameIn statement "type" = some type →
    HasWords ((extentOf statement).spanIn content) ∧ (type = "ImportFrom" → HasText statement)

/-- What breaks off at a statement with numbers that are too large. -/
inductive Misfit (content : String) (statement : Json) : Crash → Prop
  | offset {type : String} (htype : nameIn statement "type" = some type)
      (h : ¬ HasWords ((extentOf statement).spanIn content)) :
      Misfit content statement .offsetOverflow
  | name (htype : nameIn statement "type" = some "ImportFrom")
      (hwords : HasWords ((extentOf statement).spanIn content)) (h : ¬ HasText statement) :
      Misfit content statement .textOverflow

variable {content : String} {statement : Json}

theorem statementNodes_eq_error_iff {crash : Crash} :
    statementNodes (Text.lineStarts content) statement = .error crash ↔
      Misfit content statement crash := by
  unfold statementNodes
  split
  · rename_i htype
    constructor
    · intro h
      cases h
    · rintro (⟨htype', -⟩ | ⟨htype', -, -⟩) <;> simp [htype] at htype'
  · rename_i type htype
    rw [Except.bind_eq_error_iff, statementSpan_eq_ite]
    simp only [Except.map_eq_error_iff, statementNames_eq_error_iff]
    split
    · rename_i hwords
      constructor
      · rintro (h | ⟨span, -, rfl, rfl, htext⟩)
        · cases h
        · exact .name htype hwords htext
      · rintro (⟨-, hmisfit⟩ | ⟨htype', -, htext⟩)
        · exact absurd hwords hmisfit
        · cases htype.symm.trans htype'
          exact Or.inr ⟨_, rfl, rfl, rfl, htext⟩
    · rename_i hwords
      constructor
      · rintro (h | ⟨span, h, -⟩)
        · cases h
          exact .offset htype hwords
        · cases h
      · rintro (⟨-, -⟩ | ⟨-, hfits, -⟩)
        · exact Or.inl rfl
        · exact absurd hfits hwords

theorem fits_iff_forall_not_misfit :
    Fits content statement ↔ ∀ crash, ¬ Misfit content statement crash := by
  constructor
  · rintro hfits _ (⟨htype, h⟩ | ⟨htype, -, h⟩)
    · exact h (hfits _ htype).1
    · exact h ((hfits _ htype).2 rfl)
  · intro h type htype
    have hwords : HasWords ((extentOf statement).spanIn content) :=
      Decidable.of_not_not fun hwords => h _ (.offset htype hwords)
    refine ⟨hwords, fun himport => ?_⟩
    subst himport
    exact Classical.not_not.1 fun htext => h _ (.name htype hwords htext)

/-- A statement gives units exactly if its numbers fit. -/
theorem exists_statementNodes_iff :
    (∃ nodes, statementNodes (Text.lineStarts content) statement = .ok nodes) ↔
      Fits content statement := by
  rw [fits_iff_forall_not_misfit]
  simp only [← statementNodes_eq_error_iff]
  cases statementNodes (Text.lineStarts content) statement <;> simp

theorem mem_statementNodes {starts : List Nat} {nodes : List Node} {n : Node}
    (h : statementNodes starts statement = .ok nodes) :
    n ∈ nodes ↔ ∃ type span names, nameIn statement "type" = some type ∧
      statementSpan starts statement = .ok span ∧ statementNames type statement = .ok names ∧
      ∃ name ∈ names, n = .ofParse type name span false statement := by
  unfold statementNodes at h
  split at h
  · rename_i htype
    cases h
    simp [htype]
  · rename_i type htype
    obtain ⟨span, hspan, h⟩ := Except.bind_eq_ok_iff.1 h
    obtain ⟨names, hnames, rfl⟩ := Except.map_eq_ok_iff.1 h
    constructor
    · intro hn
      obtain ⟨name, hname, rfl⟩ := List.mem_map.1 hn
      exact ⟨type, span, names, htype, hspan, hnames, name, hname, rfl⟩
    · rintro ⟨_, _, _, htype', hspan', hnames', name, hname, rfl⟩
      cases htype.symm.trans htype'
      cases hspan.symm.trans hspan'
      cases hnames.symm.trans hnames'
      exact List.mem_map_of_mem hname

/-- What holds of a unit of a statement: its offsets are exact sums and words, and if it imports
from a module, its name is short enough for a text. -/
structure InRange (content : String) (statement : Json) (n : Node) : Prop where
  span : n.span = some ((extentOf statement).spanIn content)
  words : HasWords ((extentOf statement).spanIn content)
  name : n.kind = .importFrom → n.name.utf8ByteSize < textBound

theorem inRange_of_mem {nodes : List Node} {n : Node}
    (h : statementNodes (Text.lineStarts content) statement = .ok nodes) (hn : n ∈ nodes) :
    InRange content statement n := by
  obtain ⟨type, span, names, -, hspan, hnames, name, hname, rfl⟩ := (mem_statementNodes h).1 hn
  rw [statementSpan_eq_ite] at hspan
  split at hspan
  · rename_i hwords
    cases hspan
    refine ⟨rfl, hwords, fun hkind => ?_⟩
    have himport : type = "ImportFrom" := by
      rw [← NodeKind.text_ofText type]
      exact congrArg NodeKind.text hkind
    subst himport
    obtain ⟨found, hfound, rfl⟩ := Except.map_eq_ok_iff.1 hnames
    cases List.mem_singleton.1 hname
    exact utf8ByteSize_nameOr_lt hfound
  · cases hspan

/-! ## dumps -/

/-- The statements of a body fit up to one that does not. -/
def BreaksOff (content : String) (body : List Json) (crash : Crash) : Prop :=
  ∃ before statement after, body = before ++ statement :: after ∧
    (∀ earlier ∈ before, Fits content earlier) ∧ Misfit content statement crash

theorem mapM_statementNodes_eq_error_iff {body : List Json} {crash : Crash} :
    body.mapM (statementNodes (Text.lineStarts content)) = .error crash ↔
      BreaksOff content body crash := by
  simp only [mapM_eq_error_iff, exists_statementNodes_iff, statementNodes_eq_error_iff, BreaksOff]

section Body

variable {dump : Json} {body : List Json} (hbody : dump.get? "body" = some (.arr body))

include hbody

theorem statements?_of_body (content : String) :
    statements? content dump =
      (body.mapM (statementNodes (Text.lineStarts content))).map fun found =>
        some found.flatten := by
  simp only [statements?, hbody, Option.bind_some, Json.arr?]

theorem statements?_eq_error_iff {crash : Crash} :
    statements? content dump = .error crash ↔ BreaksOff content body crash := by
  rw [statements?_of_body hbody, Except.map_eq_error_iff, mapM_statementNodes_eq_error_iff]

theorem statements?_eq_ok_some_iff {nodes : List Node} :
    statements? content dump = .ok (some nodes) ↔ ∃ found,
      body.mapM (statementNodes (Text.lineStarts content)) = .ok found ∧ nodes = found.flatten := by
  rw [statements?_of_body hbody, Except.map_eq_ok_iff]
  simp only [Option.some.injEq, eq_comm (a := nodes)]

/-- The units of a dump are those of its statements. -/
theorem mem_statements? {nodes : List Node} (h : statements? content dump = .ok (some nodes))
    {n : Node} : n ∈ nodes ↔ ∃ statement ∈ body, ∃ units,
      statementNodes (Text.lineStarts content) statement = .ok units ∧ n ∈ units := by
  obtain ⟨found, hfound, rfl⟩ := (statements?_eq_ok_some_iff hbody).1 h
  simp only [List.mem_flatten, mem_iff_of_mapM_eq_ok hfound]
  constructor
  · rintro ⟨units, ⟨statement, hstatement, hunits⟩, hn⟩
    exact ⟨statement, hstatement, units, hunits, hn⟩
  · rintro ⟨statement, hstatement, units, hunits, hn⟩
    exact ⟨units, ⟨statement, hstatement, hunits⟩, hn⟩

/-- A dump gives units exactly if all its statements fit. -/
theorem exists_statements?_iff_fits :
    (∃ nodes, statements? content dump = .ok (some nodes)) ↔
      ∀ statement ∈ body, Fits content statement := by
  simp only [← exists_statementNodes_iff, ← exists_mapM_eq_ok_iff,
    statements?_eq_ok_some_iff hbody]
  constructor
  · rintro ⟨_, found, hfound, -⟩
    exact ⟨found, hfound⟩
  · rintro ⟨found, hfound⟩
    exact ⟨_, found, hfound, rfl⟩

end Body

/-- **When the numbers of a dump stay in range.**  A dump with a list of statements gives units
exactly if the numbers of every statement fit: the offsets are words, and the levels and the module
of an import together are short enough for a text.  The offsets of the units are then the exact sums
of a line start and a column.  Otherwise there is no answer, and the first statement with a number
that is too large decides what breaks off. -/
theorem dump_in_range_iff (content : String) {dump : Json} {body : List Json}
    (hbody : dump.get? "body" = some (.arr body)) :
    ((∃ nodes, statements? content dump = .ok (some nodes)) ↔
      ∀ statement ∈ body, Fits content statement) ∧
    (∀ nodes, statements? content dump = .ok (some nodes) →
      ∀ n ∈ nodes, ∃ statement ∈ body, InRange content statement n) ∧
    ∀ crash, statements? content dump = .error crash ↔ BreaksOff content body crash := by
  refine ⟨exists_statements?_iff_fits hbody, fun nodes h n hn => ?_,
    fun crash => statements?_eq_error_iff hbody⟩
  obtain ⟨statement, hstatement, units, hunits, hn⟩ := (mem_statements? hbody h).1 hn
  exact ⟨statement, hstatement, inRange_of_mem hunits hn⟩

/-- An assignment in the second line, and an import in a line that the text does not have, where
even the largest column is exact. -/
theorem dump_in_range_iff_service :
    let content := "x = 1\ny = 2\n"
    let assign : Json := .obj [("type", .str "Assign"), ("lineno", .natural 2),
      ("col_offset", .natural 0), ("end_lineno", .natural 2), ("end_col_offset", .natural 5)]
    let core : Json := .obj [("type", .str "ImportFrom"), ("lineno", .natural 9),
      ("col_offset", .natural (offsetBound - 1)), ("level", .natural 2), ("module", .str "core")]
    let dump : Json := .obj [("body", .arr [assign, core])]
    Fits content assign ∧ Fits content core ∧ ∃ nodes, statements? content dump = .ok (some nodes) ∧
      ∀ n ∈ nodes, InRange content assign n ∨ InRange content core n := by
  intro content assign core dump
  have hbody : dump.get? "body" = some (.arr [assign, core]) := rfl
  obtain ⟨hunits, hrange, -⟩ := dump_in_range_iff content hbody
  have hassign : Fits content assign := by
    intro type htype
    cases htype
    exact ⟨by decide, fun h => absurd h (by decide)⟩
  have hcore : Fits content core := by
    intro type htype
    cases htype
    exact ⟨by decide,
      fun _ => (by decide : levelOf core + (moduleOf core).utf8ByteSize < textBound)⟩
  obtain ⟨nodes, hnodes⟩ := hunits.2 (by simp [hassign, hcore])
  refine ⟨hassign, hcore, nodes, hnodes, fun n hn => ?_⟩
  simpa using hrange nodes hnodes n hn

/-- The largest column, in the second line of a text, and an import of as many levels as half a word
counts: in both cases there is no answer. -/
theorem dump_out_of_range :
    let far : Json := .obj [("type", .str "Expr"), ("lineno", .natural 2),
      ("col_offset", .natural (offsetBound - 1))]
    let deep : Json := .obj [("type", .str "ImportFrom"), ("level", .natural textBound)]
    statements? "a\nb" (.obj [("body", .arr [far])]) = .error .offsetOverflow ∧
      statements? "a\nb" (.obj [("body", .arr [deep])]) = .error .textOverflow := by
  intro far deep
  refine ⟨(statements?_eq_error_iff rfl).2 ⟨[], far, [], rfl, by simp, ?_⟩,
    (statements?_eq_error_iff rfl).2 ⟨[], deep, [], rfl, by simp, ?_⟩⟩
  · exact .offset rfl (by decide)
  · exact .name rfl (by decide)
      (by decide : ¬ levelOf deep + (moduleOf deep).utf8ByteSize < textBound)

end Interpreter

end SourceAtlas
