import SourceAtlas.Proofs.TreeView

/-!
Which texts are read as drawings of a tree.

* `TreeEntry.drawnLine_inj`: a line can be taken apart into bars and gaps, a connector and a name in
  one way only.
* `DirectoryTree.Shows`: what a well-formed line shows. `DirectoryTree.Misfit`: a line that is
  neither blank nor well-formed, or that is too deep below the line above it.
* `DirectoryTree.outcome_parseFrom`: the reader goes on as long as lines fit and stops at the first
  one that does not.
* `DirectoryTree.parse_accepts_drawings`: a text is read exactly if all its lines fit, otherwise the
  first misfit is named, and what is read can be drawn again.
-/

namespace SourceAtlas

namespace TreeEntry

theorem drawnLine_cons (bar : Bool) (bars : List Bool) (last : Bool) (name : List Char) :
    drawnLine (bar :: bars) last name =
      (if bar then pipe else gap) ++ drawnLine bars last name := by
  simp [drawnLine, indentation]

/-- Bars and gaps, connector and name can be told from the line. -/
theorem drawnLine_inj {bars bars' : List Bool} {last last' : Bool} {name name' : List Char}
    (h : drawnLine bars last name = drawnLine bars' last' name') :
    bars = bars' ∧ last = last' ∧ name = name' := by
  induction bars generalizing bars' with
  | nil =>
    cases bars' with
    | nil =>
      cases last <;> cases last' <;>
        simp_all [drawnLine, indentation, connector, branch, lastBranch]
    | cons bar' bars' =>
      -- no connector begins like a bar or a gap
      cases last <;> cases bar' <;>
        simp [drawnLine, indentation, connector, branch, lastBranch, pipe, gap] at h
  | cons bar bars ih =>
    cases bars' with
    | nil =>
      cases last' <;> cases bar <;>
        simp [drawnLine, indentation, connector, branch, lastBranch, pipe, gap] at h
    | cons bar' bars' =>
      rw [drawnLine_cons, drawnLine_cons] at h
      have hbar : bar = bar' := by
        cases bar <;> cases bar' <;> simp [pipe, gap] at h ⊢
      subst hbar
      obtain ⟨rfl, hrest⟩ := ih (List.append_cancel_left h)
      exact ⟨rfl, hrest⟩

end TreeEntry

namespace DirectoryTree

open TreeEntry

/-! ## lines that fit -/

/-- A line with nothing but white space. -/
def IsBlankLine (line : List Char) : Prop := ∀ c ∈ line, Text.isBlank c = true

instance (line : List Char) : Decidable (IsBlankLine line) :=
  inferInstanceAs (Decidable (∀ c ∈ line, Text.isBlank c = true))

/-- A line shows a name at a depth: it has a bar or a gap for each level, a connector and the
name. -/
def Shows (line : List Char) (depth : Nat) (name : String) : Prop :=
  name ≠ "" ∧ ∃ bars last, bars.length = depth ∧ line = drawnLine bars last name.toList

/-- The last of some lines that is not blank. -/
def lastShown? (lines : List (List Char)) : Option (List Char) :=
  (lines.filter fun line => !decide (IsBlankLine line)).getLast?

/-- How deep an entry may be: one level below what the line above it shows, and not below anything
on the first line. -/
def Allows : Option (List Char) → Nat → Prop
  | none, depth => depth = 0
  | some above, depth => ∃ depth' name', Shows above depth' name' ∧ depth ≤ depth' + 1

/-- A line may follow the lines `before`. -/
def Fits (before : List (List Char)) (line : List Char) : Prop :=
  IsBlankLine line ∨ ∃ depth name, Shows line depth name ∧ Allows (lastShown? before) depth

/-- There is a line at position `i`, and it may not follow the lines before it. -/
def Misfit (lines : List (List Char)) (i : Nat) : Prop :=
  ∃ line, lines[i]? = some line ∧ ¬ Fits (lines.take i) line

theorem Shows.unique {line : List Char} {depth depth' : Nat} {name name' : String}
    (h : Shows line depth name) (h' : Shows line depth' name') : depth = depth' ∧ name = name' := by
  obtain ⟨-, bars, last, rfl, rfl⟩ := h
  obtain ⟨-, bars', last', rfl, hline⟩ := h'
  obtain ⟨rfl, -, hname⟩ := drawnLine_inj hline
  exact ⟨rfl, String.toList_inj.1 hname⟩

theorem lastShown?_concat_of_blank (before : List (List Char)) {line : List Char}
    (h : IsBlankLine line) : lastShown? (before ++ [line]) = lastShown? before := by
  rw [lastShown?, List.filter_append, List.filter_cons_of_neg (by simpa using h), List.filter_nil,
    List.append_nil]
  rfl

theorem lastShown?_concat (before : List (List Char)) {line : List Char}
    (h : ¬ IsBlankLine line) : lastShown? (before ++ [line]) = some line := by
  rw [lastShown?, List.filter_append, List.filter_cons_of_pos (by simpa using h), List.filter_nil,
    List.getLast?_concat]

theorem allows_some_iff {line : List Char} {depth depth' : Nat} {name : String}
    (h : Shows line depth name) : Allows (some line) depth' ↔ depth' ≤ depth + 1 := by
  constructor
  · rintro ⟨depth'', name'', hshows, hdepth⟩
    obtain ⟨rfl, -⟩ := h.unique hshows
    exact hdepth
  · intro hdepth
    exact ⟨depth, name, h, hdepth⟩

/-- What is read from a line is what it shows. -/
theorem readLine_eq_ok_iff_shows {deepest depth : Nat} {line : List Char} {name : String} :
    readLine deepest line = .ok (depth, name) ↔ depth ≤ deepest ∧ Shows line depth name :=
  readLine_eq_ok_iff

/-! ## the first line that does not fit -/

/-- The result of reading some lines from position `start` on: a tree if they all fit, and
otherwise the number of the first one that does not. -/
def Outcome (lines : List (List Char)) (start : Nat) (result : Except TreeViewFault DirectoryTree) :
    Prop :=
  ((∃ t, result = .ok t) ∧ ∀ i, start ≤ i → ¬ Misfit lines i) ∨
    ∃ i reason, start ≤ i ∧ result = .error ⟨i + 1, reason⟩ ∧ Misfit lines i ∧
      ∀ j, start ≤ j → j < i → ¬ Misfit lines j

theorem Outcome.of_fits {lines : List (List Char)} {start : Nat}
    {result : Except TreeViewFault DirectoryTree} (h : Outcome lines (start + 1) result)
    (hfits : ¬ Misfit lines start) : Outcome lines start result := by
  rcases h with ⟨hok, hall⟩ | ⟨i, reason, hi, herror, hmisfit, hfirst⟩
  · refine Or.inl ⟨hok, fun i hi => ?_⟩
    rcases Nat.eq_or_lt_of_le hi with rfl | hlt
    · exact hfits
    · exact hall i hlt
  · refine Or.inr ⟨i, reason, by omega, herror, hmisfit, fun j hj hji => ?_⟩
    rcases Nat.eq_or_lt_of_le hj with rfl | hlt
    · exact hfits
    · exact hfirst j hlt hji

theorem misfit_length_iff {before rest : List (List Char)} {line : List Char} :
    Misfit (before ++ line :: rest) before.length ↔ ¬ Fits before line := by
  simp [Misfit]

/-- The reader stops at the first line that does not fit. -/
theorem outcome_parseFrom (before rest : List (List Char)) (path : List String)
    (hallows : ∀ depth, Allows (lastShown? before) depth ↔ depth ≤ path.length)
    (t : DirectoryTree) :
    Outcome (before ++ rest) before.length (parseFrom (before.length + 1) path t rest) := by
  -- the path to the line above is as long as the next line may be deep
  induction rest generalizing before path t with
  | nil =>
    refine Or.inl ⟨⟨t, rfl⟩, fun i hi => ?_⟩
    rintro ⟨line, hline, -⟩
    rw [List.append_nil, List.getElem?_eq_none hi] at hline
    cases hline
  | cons line rest ih =>
    have hlines : before ++ line :: rest = before ++ [line] ++ rest := by simp
    have hlength : (before ++ [line]).length = before.length + 1 := by simp
    rw [parseFrom]
    by_cases hblank : IsBlankLine line
    · rw [if_pos (Text.trim_isEmpty_iff.2 hblank)]
      have hrest := ih (before ++ [line]) path
        (by rwa [lastShown?_concat_of_blank before hblank]) t
      rw [← hlines, hlength] at hrest
      exact hrest.of_fits (misfit_length_iff.not.2 (not_not.2 (Or.inl hblank)))
    · rw [if_neg (Text.trim_isEmpty_iff.not.2 hblank)]
      cases hread : readLine path.length line with
      | error reason =>
        refine Or.inr ⟨before.length, reason, le_rfl, rfl, ?_, fun j hj hlt => by omega⟩
        rw [misfit_length_iff]
        rintro (h | ⟨depth, name, hshows, hdepth⟩)
        · exact hblank h
        · rw [readLine_eq_ok_iff_shows.2 ⟨(hallows depth).1 hdepth, hshows⟩] at hread
          cases hread
      | ok found =>
        obtain ⟨depth, name⟩ := found
        obtain ⟨hdepth, hshows⟩ := readLine_eq_ok_iff_shows.1 hread
        have hallows' : ∀ depth', Allows (lastShown? (before ++ [line])) depth' ↔
            depth' ≤ (path.take depth ++ [name]).length := by
          intro depth'
          rw [lastShown?_concat before hblank, allows_some_iff hshows]
          simp [hdepth]
        have hrest := ih (before ++ [line]) (path.take depth ++ [name]) hallows'
          (t.insert (path.take depth ++ [name]))
        rw [← hlines, hlength] at hrest
        refine hrest.of_fits (misfit_length_iff.not.2 (not_not.2 (Or.inr ?_)))
        exact ⟨depth, name, hshows, (hallows depth).2 hdepth⟩

theorem outcome_parse (text : String) :
    Outcome (Text.terminatedLines text.toList) 0 (parse text) :=
  outcome_parseFrom [] _ [] (fun depth => by simp [lastShown?, Allows]) empty

section Outcome

variable {lines : List (List Char)} {result : Except TreeViewFault DirectoryTree}

theorem Outcome.exists_ok_iff (h : Outcome lines 0 result) :
    (∃ t, result = .ok t) ↔ ∀ i, ¬ Misfit lines i := by
  rcases h with ⟨hok, hall⟩ | ⟨i, reason, -, herror, hmisfit, -⟩
  · exact iff_of_true hok fun i => hall i (Nat.zero_le i)
  · refine iff_of_false ?_ fun hall => hall i hmisfit
    rintro ⟨t, ht⟩
    rw [herror] at ht
    cases ht

theorem Outcome.exists_error_iff (h : Outcome lines 0 result) (number : Nat) :
    (∃ reason, result = .error ⟨number, reason⟩) ↔
      ∃ i, number = i + 1 ∧ Misfit lines i ∧ ∀ j < i, ¬ Misfit lines j := by
  rcases h with ⟨⟨t, ht⟩, hall⟩ | ⟨i, reason, -, herror, hmisfit, hfirst⟩
  · refine iff_of_false ?_ ?_
    · rintro ⟨reason, herror⟩
      rw [ht] at herror
      cases herror
    · rintro ⟨i, -, hmisfit, -⟩
      exact hall i (Nat.zero_le i) hmisfit
  · constructor
    · rintro ⟨reason', herror'⟩
      rw [herror] at herror'
      cases herror'
      exact ⟨i, rfl, hmisfit, fun j hj => hfirst j (Nat.zero_le j) hj⟩
    · rintro ⟨k, rfl, hmisfit', hfirst'⟩
      -- two first misfits are the same one
      have hle : ¬ i < k := fun hlt => hfirst' i hlt hmisfit
      have hge : ¬ k < i := fun hlt => hfirst k (Nat.zero_le k) hlt hmisfit'
      have heq : k = i := by omega
      exact ⟨reason, heq ▸ herror⟩

end Outcome

/-! ## texts that are read -/

/-- The names in a text without carriage returns can be drawn. -/
theorem throughoutAll_drawableName {text : String} {t : DirectoryTree} (h : parse text = .ok t)
    (hreturn : '\r' ∉ text.toList) :
    ThroughoutAll (fun name e => Occupied e ∧ DrawableName name) t.entries := by
  refine throughoutAll_parse (fun line hline deepest depth name hread => ?_) h
  have hnewline := Text.newline_not_mem_of_mem_terminatedLines hline
  obtain ⟨hne, hfeed⟩ := readableName_of_readLine hnewline hread
  obtain ⟨-, -, bars, last, -, rfl⟩ := readLine_eq_ok_iff.1 hread
  refine ⟨hne, hfeed, fun hlast => hreturn ?_⟩
  have hmem := List.mem_of_getLast? hlast
  exact Text.mem_of_mem_terminatedLines hline (List.mem_append_right _ hmem)

/-- **Which texts are read.**  A line can be taken apart in one way only.  A text is read exactly if
every line that is not blank consists of bars or gaps, a connector and a name, and is at most one
level deeper than the last line before it that is not blank; the first one has no bars or gaps.
Otherwise the number of the first line that does not fit is given.  What is read has no empty names
and no empty directories, and if there is no carriage return in the text, it is read again from its
drawing. -/
theorem parse_accepts_drawings (text : String) :
    (∀ bars bars' last last' name name',
      drawnLine bars last name = drawnLine bars' last' name' ↔
        bars = bars' ∧ last = last' ∧ name = name') ∧
    ((∃ t, parse text = .ok t) ↔ ∀ i, ¬ Misfit (Text.terminatedLines text.toList) i) ∧
    (∀ number, (∃ reason, parse text = .error ⟨number, reason⟩) ↔
      ∃ i, number = i + 1 ∧ Misfit (Text.terminatedLines text.toList) i ∧
        ∀ j < i, ¬ Misfit (Text.terminatedLines text.toList) j) ∧
    ∀ t, parse text = .ok t →
      ThroughoutAll (fun name e => Occupied e ∧ name ≠ "") t.entries ∧
        ('\r' ∉ text.toList → parse t.render = .ok t) := by
  have houtcome := outcome_parse text
  refine ⟨fun bars bars' last last' name name' => ⟨drawnLine_inj, ?_⟩, houtcome.exists_ok_iff,
    houtcome.exists_error_iff, fun t ht => ⟨?_, fun hreturn => ?_⟩⟩
  · rintro ⟨rfl, rfl, rfl⟩
    rfl
  · exact (throughoutAll_readableName ht).imp fun _ _ hname => ⟨hname.1, hname.2.1⟩
  · exact parse_render_of_drawable (throughoutAll_drawableName ht hreturn)

/-- Blank lines are counted, although they are passed over. -/
example : parse "├── a\n \n        └── b\n" = .error ⟨3, .tooDeep 1⟩ := rfl

end DirectoryTree

end SourceAtlas
