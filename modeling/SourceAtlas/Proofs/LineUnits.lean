import SourceAtlas.Proofs.AnalysisUnits
import SourceAtlas.Proofs.Blanks

/-!
What the declarations of a text say of its lines.

* `IsUnitOf`: what a unit says of the line that it stands for.
* `nodup_declared_distinct`: no unit declares what another one does.
* `units_match_lines`: each declaration of a text is a unit of the line that it names.
-/

namespace SourceAtlas

/-- The beginning of a long line, in terms of its length. -/
theorem Text.shorten_eq (limit : Nat) (line : List Char) :
    shorten limit line =
      if line.length ≤ limit then line else line.take limit ++ ['.', '.', '.'] := by
  simp only [shorten, List.isEmpty_iff, List.drop_eq_nil_iff]

theorem NodeKind.isGrammar_of_mem_named {kind : NodeKind} (h : kind ∈ named) :
    kind.isGrammar = false := by
  cases kind with
  | grammar type => exact absurd h (grammar_not_mem_named type)
  | _ => rfl

/-- Without a name, or with an empty one, a unit is anonymous. -/
theorem Node.nameOr_cases (name : Option String) :
    nameOr name = anonymous ∨ name = some (nameOr name) ∧ nameOr name ≠ "" := by
  cases name with
  | none => exact Or.inl rfl
  | some name =>
    by_cases h : name = ""
    · rw [h]
      exact Or.inl rfl
    · have hname : nameOr (some name) = name := by simp [nameOr, h]
      rw [hname]
      exact Or.inr ⟨rfl, h⟩

namespace Declaration

/-! ## the unit of a line -/

/-- What a unit says of the trimmed line that it stands for. -/
structure IsUnitOf (language : Language) (width : Nat) (line : List Char) (n : Node) : Prop where
  not_blank : line ≠ []
  not_comment : ∀ marker ∈ language.commentMarkers, ¬ marker.toList <+: line
  /-- The line is shown as it is, or as far as it fits. -/
  content : n.content = some (String.ofList
    (if line.length ≤ width then line else line.take width ++ "...".toList))
  name_ne_empty : n.name ≠ ""
  name_trimmed : Text.trimmed n.name = n.name
  not_grammar : n.kind.isGrammar = false
  not_control : n.kind.family? = some .functions → n.name ∉ controlKeywords
  span : n.span = none
  tree : n.tree = none
  exported : n.exported = false

theorem nameOr_nameIn_trimmed (kept : Option (List Char)) :
    Text.trimmed (Node.nameOr (nameIn kept)) = Node.nameOr (nameIn kept) := by
  rcases Node.nameOr_cases (nameIn kept) with h | ⟨h, -⟩
  · rw [h]
    decide
  · obtain ⟨cs, -, hname⟩ := Option.map_eq_some_iff.1 h
    rw [← hname, Text.trimmed, String.toList_ofList, Text.trim_trim]

theorem nameOr_nameIn_ne_empty (kept : Option (List Char)) : Node.nameOr (nameIn kept) ≠ "" := by
  rcases Node.nameOr_cases (nameIn kept) with h | ⟨-, h⟩
  · rw [h]
    decide
  · exact h

theorem isUnitOf_of_node? {language : Language} {number width : Nat} {line : List Char}
    {rule : Rule} {n : Node} (hskip : isSkipped language.commentMarkers line = false)
    (hrule : rule ∈ catalog language) (h : rule.node? number width line = some n) :
    IsUnitOf language width line n := by
  obtain ⟨kept, -, hcontrol, rfl⟩ := Rule.node?_eq_some_iff.1 h
  simp only [isSkipped, Bool.or_eq_false_iff, List.isEmpty_eq_false_iff, List.any_eq_false,
    List.isPrefixOf_iff_prefix] at hskip
  obtain ⟨hblank, hcomment⟩ := hskip
  refine ⟨hblank, hcomment, ?_, nameOr_nameIn_ne_empty kept, nameOr_nameIn_trimmed kept,
    NodeKind.isGrammar_of_mem_named (kind_mem_named_of_mem_catalog language rule hrule), ?_, rfl,
    rfl, rfl⟩
  · rw [← show ['.', '.', '.'] = "...".toList from rfl, ← Text.shorten_eq]
    rfl
  · intro hfamily
    change Node.nameOr (nameIn kept) ∉ controlKeywords
    rcases Node.nameOr_cases (nameIn kept) with hname | ⟨hname, -⟩
    · rw [hname]
      decide
    · exact hcontrol hfamily _ hname

/-- A unit among those of all lines is one of the line that it names. -/
theorem exists_line_of_mem_allNodes {language : Language} {width number : Nat}
    {lines : List (List Char)} {n : Node} (h : n ∈ allNodes language width number lines) :
    ∃ i line, lines[i]? = some line ∧ n.line = number + i ∧
      IsUnitOf language width (Text.trim line) n := by
  obtain ⟨i, line, hline, hn⟩ := mem_allNodes_iff.1 h
  obtain ⟨hskip, rule, hrule, hnode⟩ := mem_lineNodes_iff.1 hn
  refine ⟨i, line, hline, ?_, isUnitOf_of_node? hskip hrule hnode⟩
  obtain ⟨kept, -, -, rfl⟩ := Rule.node?_eq_some_iff.1 hnode
  rfl

/-! ## order and selection -/

theorem line_of_mem_lineNodes {language : Language} {number width : Nat} {line : List Char}
    {n : Node} (h : n ∈ lineNodes language number width line) : n.line = number := by
  obtain ⟨-, rule, -, hnode⟩ := mem_lineNodes_iff.1 h
  obtain ⟨kept, -, -, rfl⟩ := Rule.node?_eq_some_iff.1 hnode
  rfl

theorem pairwise_line_allNodes (language : Language) (width number : Nat)
    (lines : List (List Char)) :
    (allNodes language width number lines).Pairwise fun m n => m.line ≤ n.line := by
  induction lines generalizing number with
  | nil => exact List.Pairwise.nil
  | cons line lines ih =>
    rw [allNodes, List.pairwise_append]
    refine ⟨?_, ih (number + 1), ?_⟩
    · apply List.pairwise_of_forall_mem_list
      intro m hm n hn
      rw [line_of_mem_lineNodes hm, line_of_mem_lineNodes hn]
    · intro m hm n hn
      obtain ⟨i, -, -, hi, -⟩ := exists_line_of_mem_allNodes hn
      rw [line_of_mem_lineNodes hm, hi]
      omega

/-- No two of the selected units declare the same, and none declares what was seen before. -/
theorem nodup_declared_distinct (seen ns : List Node) :
    ((distinct seen ns).map declared).Nodup ∧
      ∀ n ∈ distinct seen ns, declared n ∉ seen.map declared := by
  induction ns generalizing seen with
  | nil => simp [distinct]
  | cons n ns ih =>
    by_cases hn : declared n ∈ seen.map declared
    · rw [distinct_cons_of_mem hn]
      exact ih seen
    · obtain ⟨hnodup, hseen⟩ := ih (n :: seen)
      rw [distinct_cons_of_not_mem hn, List.map_cons, List.nodup_cons]
      refine ⟨⟨?_, hnodup⟩, ?_⟩
      · intro hmem
        obtain ⟨m, hm, e⟩ := List.mem_map.1 hmem
        apply hseen m hm
        rw [e]
        exact List.mem_cons_self
      · intro m hm
        rcases List.mem_cons.1 hm with rfl | hm
        · exact hn
        · exact fun h => hseen m hm (List.mem_cons_of_mem _ h)

/-! ## texts -/

/-- **Every declaration matches its line.**  A declaration that the rules find in a text names one
of its lines, is a unit of that line, and comes after the declarations of the lines before; no two
declare the same. -/
theorem units_match_lines (language : Language) (width : Nat) (content : String) :
    (∀ n ∈ extract language width content,
      1 ≤ n.line ∧ n.line ≤ Text.countLines content ∧
        ∃ line, (Text.splitLines content.toList)[n.line - 1]? = some line ∧
          IsUnitOf language width (Text.trim line) n) ∧
    (extract language width content).Pairwise (fun m n => m.line ≤ n.line) ∧
    (extract language width content).Pairwise fun m n => ¬ (m.kind = n.kind ∧ m.name = n.name) := by
  unfold extract
  refine ⟨?_, (pairwise_line_allNodes language width 1 _).sublist (distinct_sublist [] _), ?_⟩
  · intro n hn
    obtain ⟨i, line, hline, hnumber, hunit⟩ :=
      exists_line_of_mem_allNodes ((distinct_sublist [] _).subset hn)
    have hlt : i < (Text.splitLines content.toList).length :=
      (List.getElem?_eq_some_iff.1 hline).1
    rw [Text.length_splitLines_toList] at hlt
    refine ⟨by omega, by omega, line, ?_, hunit⟩
    rwa [hnumber, show 1 + i - 1 = i by omega]
  · have hnodup := (nodup_declared_distinct []
      (allNodes language width 1 (Text.splitLines content.toList))).1
    refine (List.pairwise_map.1 hnodup).imp ?_
    rintro m n hne ⟨hkind, hname⟩
    exact hne (Prod.ext hkind hname)

/-- The second of three lines, of which the first is a comment and the last begins with a control
keyword; it is shown up to its twelfth character. -/
theorem units_match_lines_cut :
    ∃ n ∈ extract .c 12 "// sums\r\n  static long add(int a, int b) \x7b\n\x7d else if (a) \x7b",
      n.name = "add" ∧ n.line = 2 ∧ n.content = some "static long ..." ∧
        n.name ∉ controlKeywords := by
  have hfound : (extract .c 12
      "// sums\r\n  static long add(int a, int b) \x7b\n\x7d else if (a) \x7b").map
        (fun n => (n.kind, n.name, n.line)) = [(.functionDeclaration, "add", 2)] := by
    decide +kernel
  obtain ⟨n, hn, e⟩ := List.mem_map.1 (hfound ▸ List.mem_singleton_self _)
  simp only [Prod.mk.injEq] at e
  obtain ⟨hkind, hname, hnumber⟩ := e
  obtain ⟨-, -, line, hline, hunit⟩ := (units_match_lines .c 12 _).1 n hn
  rw [hnumber] at hline
  have htext : line = "  static long add(int a, int b) \x7b".toList :=
    Option.some.inj (hline.symm.trans (by decide +kernel))
  refine ⟨n, hn, hname, hnumber, ?_, hunit.not_control (by rw [hkind]; rfl)⟩
  rw [hunit.content, htext]
  decide +kernel

end Declaration

end SourceAtlas
