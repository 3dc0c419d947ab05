import Mathlib.Data.List.Forall2
import SourceAtlas.Proofs.Blanks
import SourceAtlas.Proofs.Fallback

/-!
Line ends and indentation in files whose declarations are found line by line.

* `Text.SameLines`: two texts with the same lines, but for the blanks around them.
* `Text.withReturns`, `Text.sameLines_withReturns`: carriage returns before the line feeds are such
  blanks.
* `Declaration.extract_eq_of_sameLines`: such texts declare the same.
* `Analysis.records_ignore_surrounding_blanks`: they have the same record.
-/

namespace SourceAtlas

/-! ## texts with the same lines -/

namespace Text

/-- As many lines in both texts, and the same text between the blanks of each. -/
def SameLines (a b : String) : Prop :=
  List.Forall₂ (fun x y => trim x = trim y) (splitLines a.toList) (splitLines b.toList)

theorem SameLines.countLines_eq {a b : String} (h : SameLines a b) :
    countLines a = countLines b := by
  rw [← length_splitLines_toList, ← length_splitLines_toList]
  exact h.length_eq

/-- A text with a carriage return before every line feed. -/
def withReturns (s : String) : String :=
  String.ofList (s.toList.flatMap fun c => if c = '\n' then ['\r', '\n'] else [c])

/-- A line, perhaps with a carriage return at its end. -/
def MayReturn (line line' : List Char) : Prop := line' = line ∨ line' = line ++ ['\r']

theorem MayReturn.trim_eq {line line' : List Char} (h : MayReturn line line') :
    trim line = trim line' := by
  rcases h with rfl | rfl
  · rfl
  · exact (trim_concat_of_isBlank (by decide) line).symm

theorem MayReturn.cons {line line' : List Char} (h : MayReturn line line') (c : Char) :
    MayReturn (c :: line) (c :: line') := by
  rcases h with rfl | rfl
  · exact Or.inl rfl
  · exact Or.inr rfl

theorem splitLines_cons_of_ne {c : Char} (hc : c ≠ '\n') (cs : List Char) :
    ∃ line lines, splitLines cs = line :: lines ∧ splitLines (c :: cs) = (c :: line) :: lines := by
  obtain ⟨line, lines, e⟩ := List.exists_cons_of_ne_nil (splitOn_ne_nil (· == '\n') cs)
  refine ⟨line, lines, e, ?_⟩
  have hcut : (c == '\n') = false := by simpa using hc
  show splitOn _ (c :: cs) = _
  rw [splitOn, hcut, e]
  rfl

/-- The text grows line by line from its end: a line feed opens a line, and any other character goes
to the front of the first one. -/
theorem forall₂_splitLines_withReturns (cs : List Char) :
    List.Forall₂ MayReturn (splitLines cs)
      (splitLines (cs.flatMap fun c => if c = '\n' then ['\r', '\n'] else [c])) := by
  induction cs with
  | nil => exact List.Forall₂.cons (Or.inl rfl) List.Forall₂.nil
  | cons c cs ih =>
    rw [List.flatMap_cons]
    by_cases hc : c = '\n'
    · rw [if_pos hc, hc]
      exact List.Forall₂.cons (Or.inr rfl) ih
    · rw [if_neg hc, List.singleton_append]
      obtain ⟨line, lines, e, e'⟩ := splitLines_cons_of_ne hc cs
      obtain ⟨line', lines', f, f'⟩ := splitLines_cons_of_ne hc
        (cs.flatMap fun c => if c = '\n' then ['\r', '\n'] else [c])
      rw [e, f, List.forall₂_cons] at ih
      rw [e', f', List.forall₂_cons]
      exact ⟨ih.1.cons c, ih.2⟩

theorem sameLines_withReturns (s : String) : SameLines s (withReturns s) := by
  unfold SameLines withReturns
  rw [String.toList_ofList]
  exact (forall₂_splitLines_withReturns s.toList).imp fun _ _ h => h.trim_eq

end Text

/-! ## their declarations -/

namespace Declaration

theorem lineNodes_eq_of_trim_eq {line line' : List Char} (h : Text.trim line = Text.trim line')
    (language : Language) (number width : Nat) :
    lineNodes language number width line = lineNodes language number width line' := by
  unfold lineNodes
  rw [h]

theorem allNodes_eq_of_forall₂ {lines lines' : List (List Char)}
    (h : List.Forall₂ (fun x y => Text.trim x = Text.trim y) lines lines') (language : Language)
    (width number : Nat) :
    allNodes language width number lines = allNodes language width number lines' := by
  induction h generalizing number with
  | nil => rfl
  | cons hline _ ih => rw [allNodes, allNodes, lineNodes_eq_of_trim_eq hline, ih]

theorem extract_eq_of_sameLines {a b : String} (h : Text.SameLines a b) (language : Language)
    (width : Nat) : extract language width a = extract language width b := by
  unfold extract
  rw [allNodes_eq_of_forall₂ h]

end Declaration

/-! ## their records -/

namespace Analysis

theorem analyzeContent_of_primaryStrategy?_eq_none {settings : AnalysisSettings}
    {language : Language} (h : primaryStrategy? settings language = none) (tools : Toolchain)
    (path content : String) (byteSize : Nat) :
    analyzeContent tools settings path language content byteSize =
      .ok (patternRecord settings path language content byteSize) := by
  simp only [analyzeContent, h]

theorem patternRecord_eq_of_sameLines {a b : String} (h : Text.SameLines a b)
    (settings : AnalysisSettings) (path : String) (language : Language) (byteSize : Nat) :
    patternRecord settings path language a byteSize =
      patternRecord settings path language b byteSize := by
  unfold patternRecord Metadata.ofContent
  rw [Declaration.extract_eq_of_sameLines h, h.countLines_eq]

/-- **Blanks around the lines do not matter.**  In a language without a first strategy, two texts
with as many lines and the same text between the blanks of each have the same record; so have a text
and the same text with carriage returns before its line feeds. -/
theorem records_ignore_surrounding_blanks {settings : AnalysisSettings} {language : Language}
    (hprimary : primaryStrategy? settings language = none) (tools : Toolchain) (path : String)
    (byteSize : Nat) :
    (∀ a b : String, Text.SameLines a b →
      analyzeContent tools settings path language a byteSize =
        analyzeContent tools settings path language b byteSize) ∧
    ∀ content : String,
      analyzeContent tools settings path language content byteSize =
        analyzeContent tools settings path language (Text.withReturns content) byteSize := by
  have hsame : ∀ a b : String, Text.SameLines a b →
      analyzeContent tools settings path language a byteSize =
        analyzeContent tools settings path language b byteSize := by
    intro a b h
    rw [analyzeContent_of_primaryStrategy?_eq_none hprimary,
      analyzeContent_of_primaryStrategy?_eq_none hprimary,
      patternRecord_eq_of_sameLines h]
  exact ⟨hsame, fun content => hsame _ _ (Text.sameLines_withReturns content)⟩

/-- A Python file, indented, flat and with carriage returns, when no interpreter is called. -/
theorem records_ignore_surrounding_blanks_python :
    let tools : Toolchain := ⟨fun _ _ => none, fun _ _ => .notStarted .notFound⟩
    let settings := AnalysisSettings.standard.withoutInterpreter
    let indented := "class A:\n    def f(self):\n        pass"
    let flat := "class A:\ndef f(self): \r\n\tpass"
    primaryStrategy? settings .python = none ∧ Text.SameLines indented flat ∧
      analyzeContent tools settings "a.py" .python indented 42 =
        analyzeContent tools settings "a.py" .python flat 42 ∧
      analyzeContent tools settings "a.py" .python indented 42 =
        analyzeContent tools settings "a.py" .python
          "class A:\r\n    def f(self):\r\n        pass" 42 := by
  intro tools settings indented flat
  have hprimary : primaryStrategy? settings .python = none := rfl
  have hsame : Text.SameLines indented flat := by
    unfold Text.SameLines
    decide +kernel
  have hreturns : Text.withReturns indented = "class A:\r\n    def f(self):\r\n        pass" := by
    decide +kernel
  obtain ⟨hlines, hends⟩ := records_ignore_surrounding_blanks hprimary tools "a.py" 42
  refine ⟨hprimary, hsame, hlines indented flat hsame, ?_⟩
  rw [← hreturns]
  exact hends indented

end Analysis

end SourceAtlas
