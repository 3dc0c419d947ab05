import Mathlib.Data.List.Infix
import Mathlib.Data.List.TakeWhile
import SourceAtlas.Text.Blank
import SourceAtlas.Text.Lines

/-!
What the lines of a text are made of.

* `splitOn_append_cut`: a separator divides the pieces of a text into those before and after it.
* `splitOn_intercalate`: pieces that are joined by separators are read back.
* `length_splitLines`: a text has one line more than it has line feeds.
* `terminatedLines_ended`: lines that are ended one by one are read back, less carriage returns.
-/

namespace SourceAtlas.Text

/-! ## pieces -/

section Pieces

variable {α : Type}

theorem splitOn_eq_splitOnP (cut : α → Bool) (cs : List α) :
    splitOn cut cs = cs.splitOnP cut := by
  induction cs with
  | nil => rfl
  | cons c cs ih =>
    rw [splitOn, List.splitOnP_cons_eq_if_modifyHead, ih]
    split
    · rfl
    · obtain ⟨piece, pieces, e⟩ := List.exists_cons_of_ne_nil (List.splitOnP_ne_nil cut cs)
      simp [e]

theorem splitOn_ne_nil (cut : α → Bool) (cs : List α) : splitOn cut cs ≠ [] := by
  rw [splitOn_eq_splitOnP]
  exact List.splitOnP_ne_nil cut cs

/-- A separator ends the pieces before it, and those after it begin anew. -/
theorem splitOn_append_cut {cut : α → Bool} {c : α} (h : cut c = true) (as bs : List α) :
    splitOn cut (as ++ c :: bs) = splitOn cut as ++ splitOn cut bs := by
  simp only [splitOn_eq_splitOnP]
  exact List.splitOnP_append_cons as bs h

theorem splitOn_of_forall_not {cut : α → Bool} {cs : List α} (h : ∀ c ∈ cs, cut c = false) :
    splitOn cut cs = [cs] := by
  rw [splitOn_eq_splitOnP]
  exact List.splitOnP_eq_singleton h

/-- Pieces without a separator in them are read back from a text that joins them by one. -/
theorem splitOn_intercalate {cut : α → Bool} {c : α} (hc : cut c = true)
    {pieces : List (List α)} (hne : pieces ≠ [])
    (h : ∀ piece ∈ pieces, ∀ x ∈ piece, cut x = false) :
    splitOn cut ([c].intercalate pieces) = pieces := by
  induction pieces with
  | nil => exact absurd rfl hne
  | cons piece pieces ih =>
    have hpiece := splitOn_of_forall_not (h piece List.mem_cons_self)
    rcases pieces with _ | ⟨next, rest⟩
    · simpa using hpiece
    · have hrest := ih (by simp) fun p hp => h p (List.mem_cons_of_mem _ hp)
      rw [List.intercalate_cons_cons, List.append_assoc, List.singleton_append,
        splitOn_append_cut hc, hpiece, hrest]
      rfl

theorem not_cut_of_mem_splitOn {cut : α → Bool} {cs piece : List α}
    (h : piece ∈ splitOn cut cs) : ∀ c ∈ piece, cut c = false := by
  induction cs generalizing piece with
  | nil => simp_all [splitOn]
  | cons x cs ih =>
    unfold splitOn at h
    split at h
    · rcases List.mem_cons.1 h with rfl | h
      · simp
      · exact ih h
    · rename_i hx
      obtain ⟨first, pieces, e⟩ := List.exists_cons_of_ne_nil (splitOn_ne_nil cut cs)
      rw [e] at h ih
      rcases List.mem_cons.1 h with rfl | h
      · intro c hc
        rcases List.mem_cons.1 hc with rfl | hc
        · simpa using hx
        · exact ih List.mem_cons_self c hc
      · exact ih (List.mem_cons_of_mem _ h)

/-- The pieces of a text are made of its characters. -/
theorem mem_of_mem_splitOn {cut : α → Bool} {cs piece : List α} (h : piece ∈ splitOn cut cs)
    {c : α} (hc : c ∈ piece) : c ∈ cs := by
  induction cs generalizing piece with
  | nil => simp_all [splitOn]
  | cons x cs ih =>
    unfold splitOn at h
    split at h
    · rcases List.mem_cons.1 h with rfl | h
      · cases hc
      · exact List.mem_cons_of_mem x (ih h hc)
    · obtain ⟨first, pieces, e⟩ := List.exists_cons_of_ne_nil (splitOn_ne_nil cut cs)
      rw [e] at h ih
      rcases List.mem_cons.1 h with rfl | h
      · rcases List.mem_cons.1 hc with rfl | hc
        · exact List.mem_cons_self
        · exact List.mem_cons_of_mem x (ih List.mem_cons_self hc)
      · exact List.mem_cons_of_mem x (ih (List.mem_cons_of_mem first h) hc)

end Pieces

/-! ## lines -/

theorem splitLines_append (as bs : List Char) :
    splitLines (as ++ '\n' :: bs) = splitLines as ++ splitLines bs :=
  splitOn_append_cut (by simp) as bs

theorem splitLines_of_not_mem {cs : List Char} (h : '\n' ∉ cs) : splitLines cs = [cs] := by
  refine splitOn_of_forall_not fun c hc => ?_
  have : c ≠ '\n' := fun e => h (e ▸ hc)
  simpa using this

theorem newline_not_mem_of_mem_splitLines {cs line : List Char} (h : line ∈ splitLines cs) :
    '\n' ∉ line := by
  intro hc
  simpa using not_cut_of_mem_splitOn h '\n' hc

theorem length_splitLines (cs : List Char) : (splitLines cs).length = cs.count '\n' + 1 := by
  unfold splitLines
  induction cs with
  | nil => rfl
  | cons c cs ih =>
    unfold splitOn
    by_cases hc : c = '\n'
    · simp [hc, ih]
    · obtain ⟨piece, pieces, e⟩ := List.exists_cons_of_ne_nil (splitOn_ne_nil (· == '\n') cs)
      rw [e] at ih ⊢
      have hcount : (c :: cs).count '\n' = cs.count '\n' := by simp [hc]
      have hcut : (c == '\n') = false := by simpa using hc
      simpa [hcut, hcount] using ih

theorem length_splitLines_toList (s : String) : (splitLines s.toList).length = countLines s :=
  length_splitLines s.toList

theorem splitLines_ended {lines : List (List Char)} (h : ∀ line ∈ lines, '\n' ∉ line) :
    splitLines (lines.flatMap fun line => line ++ ['\n']) = lines ++ [[]] := by
  induction lines with
  | nil => rfl
  | cons line lines ih =>
    have hline := splitLines_of_not_mem (h line List.mem_cons_self)
    have hlines := ih fun l hl => h l (List.mem_cons_of_mem _ hl)
    rw [List.flatMap_cons, List.append_assoc, List.singleton_append, splitLines_append, hline,
      hlines]
    rfl

/-- Lines that are ended by a line feed each are read back without the carriage returns at their
ends. -/
theorem terminatedLines_ended {lines : List (List Char)} (h : ∀ line ∈ lines, '\n' ∉ line) :
    terminatedLines (lines.flatMap fun line => line ++ ['\n']) = lines.map dropReturn := by
  simp [terminatedLines, splitLines_ended h]

/-! ## carriage returns -/

theorem mem_of_mem_dropReturn {line : List Char} {c : Char} (h : c ∈ dropReturn line) :
    c ∈ line := by
  unfold dropReturn at h
  split at h
  · exact List.mem_of_mem_dropLast h
  · exact h

/-- Every line is a piece between line feeds, or less than one. -/
theorem exists_subset_splitLines {cs line : List Char} (h : line ∈ terminatedLines cs) :
    ∃ piece ∈ splitLines cs, line ⊆ piece := by
  unfold terminatedLines at h
  rcases List.mem_append.1 h with h | h
  · obtain ⟨piece, hpiece, rfl⟩ := List.mem_map.1 h
    exact ⟨piece, List.mem_of_mem_dropLast hpiece, fun c hc => mem_of_mem_dropReturn hc⟩
  · split at h
    · cases h
    · obtain ⟨last, e⟩ : ∃ last, (splitLines cs).getLast? = some last :=
        ⟨_, List.getLast?_eq_some_getLast (splitOn_ne_nil _ cs)⟩
      rw [e] at h
      rw [List.mem_singleton.1 h]
      exact ⟨last, List.mem_of_getLast? e, List.Subset.refl last⟩

theorem newline_not_mem_of_mem_terminatedLines {cs line : List Char}
    (h : line ∈ terminatedLines cs) : '\n' ∉ line := by
  obtain ⟨piece, hpiece, hsub⟩ := exists_subset_splitLines h
  exact fun hc => newline_not_mem_of_mem_splitLines hpiece (hsub hc)

theorem mem_of_mem_terminatedLines {cs line : List Char} (h : line ∈ terminatedLines cs) {c : Char}
    (hc : c ∈ line) : c ∈ cs := by
  obtain ⟨piece, hpiece, hsub⟩ := exists_subset_splitLines h
  exact mem_of_mem_splitOn hpiece (hsub hc)

/-- Only the end of a line matters to `dropReturn`. -/
theorem dropReturn_append {front back : List Char} (h : back ≠ []) :
    dropReturn (front ++ back) = front ++ dropReturn back := by
  unfold dropReturn
  rw [List.getLast?_append_of_ne_nil _ h]
  split
  · exact List.dropLast_append_of_ne_nil h
  · rfl

theorem dropReturn_of_getLast?_ne {line : List Char} (h : line.getLast? ≠ some '\r') :
    dropReturn line = line := by
  simp [dropReturn, h]

/-- A line that loses its carriage return is one character longer than what is left. -/
theorem length_dropReturn_of_getLast?_eq {line : List Char} (h : line.getLast? = some '\r') :
    (dropReturn line).length + 1 = line.length := by
  have hne : line ≠ [] := by
    rintro rfl
    cases h
  have := List.length_pos_iff.2 hne
  simp only [dropReturn, h, if_true, List.length_dropLast]
  omega

theorem length_dropReturn_le (line : List Char) : (dropReturn line).length ≤ line.length := by
  unfold dropReturn
  split <;> simp

/-! ## blank lines -/

theorem mem_dropWhile_isBlank {cs : List Char} {c : Char} (h : c ∈ cs) (hc : isBlank c = false) :
    c ∈ cs.dropWhile isBlank := by
  rw [← List.takeWhile_append_dropWhile (p := isBlank) (l := cs)] at h
  rcases List.mem_append.1 h with h | h
  · rw [List.mem_takeWhile_imp h] at hc
    cases hc
  · exact h

/-- A line with a character that is not blank is not blank. -/
theorem trim_isEmpty_of_mem {cs : List Char} {c : Char} (h : c ∈ cs) (hc : isBlank c = false) :
    (trim cs).isEmpty = false := by
  have h1 : c ∈ trimStart cs := mem_dropWhile_isBlank h hc
  have h2 : c ∈ trim cs := by
    unfold trim trimEnd
    rw [List.mem_reverse]
    exact mem_dropWhile_isBlank (List.mem_reverse.2 h1) hc
  simpa using List.ne_nil_of_mem h2

/-- Nothing is left of a line between the blanks around it exactly if all of it is blank. -/
theorem trim_isEmpty_iff {cs : List Char} :
    (trim cs).isEmpty = true ↔ ∀ c ∈ cs, isBlank c = true := by
  constructor
  · intro h c hc
    by_contra hblank
    rw [trim_isEmpty_of_mem hc (by simpa using hblank)] at h
    cases h
  · intro h
    have hstart : trimStart cs = [] := List.dropWhile_eq_nil_iff.2 h
    rw [trim, hstart]
    rfl

end SourceAtlas.Text
