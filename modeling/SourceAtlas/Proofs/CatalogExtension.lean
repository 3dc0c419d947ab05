import SourceAtlas.Proofs.Extraction

/-!
The rules of TypeScript extend those of JavaScript.

* `distinct_filter`: units that are left out by what they declare may be left out before or after
  the first of each is selected.
* `filter_lineNodes_typeScript`: in every line the rules that only TypeScript has add units of their
  own kinds, and change nothing else.
* `typeScript_extends_javaScript`: without those kinds, the declarations of a text are the same in
  both languages.
-/

namespace SourceAtlas.Declaration

/-- The kinds of the declarations that only TypeScript has. -/
def typeScriptKinds : List NodeKind :=
  [.interfaceDeclaration, .typeAlias, .enumDeclaration, .namespaceDeclaration]

theorem kind_mem_typeScriptKinds : ∀ rule ∈ typeScriptExtraRules, rule.kind ∈ typeScriptKinds := by
  decide

theorem kind_not_mem_typeScriptKinds : ∀ rule ∈ javaScriptRules, rule.kind ∉ typeScriptKinds := by
  decide

/-! ## selection -/

/-- A unit seen before drops nothing from units that declare something else. -/
theorem distinct_cons_seen {n : Node} {ns : List Node} (h : ∀ m ∈ ns, declared m ≠ declared n)
    (seen : List Node) : distinct (n :: seen) ns = distinct seen ns := by
  have hother : ∀ m ∈ distinct seen ns, declared m ≠ declared n := fun m hm =>
    h m ((distinct_sublist seen ns).subset hm)
  rw [← List.singleton_append, distinct_append_seen, List.filter_eq_self]
  simpa using hother

/-- What is left out by what it declares is left out before or after the selection. -/
theorem distinct_filter (p : NodeKind × String → Bool) (seen ns : List Node) :
    distinct seen (ns.filter fun n => p (declared n)) =
      (distinct seen ns).filter fun n => p (declared n) := by
  induction ns generalizing seen with
  | nil => rfl
  | cons n ns ih =>
    by_cases hp : p (declared n) = true
    · rw [List.filter_cons_of_pos (by exact hp)]
      by_cases hn : declared n ∈ seen.map declared
      · rw [distinct_cons_of_mem hn, distinct_cons_of_mem hn, ih]
      · rw [distinct_cons_of_not_mem hn, distinct_cons_of_not_mem hn,
          List.filter_cons_of_pos (by exact hp), ih]
    · rw [List.filter_cons_of_neg (by exact hp)]
      by_cases hn : declared n ∈ seen.map declared
      · rw [distinct_cons_of_mem hn, ih]
      · -- `n` is seen on the right only, and no unit that stays declares the same
        have hother : ∀ m ∈ ns.filter (fun m => p (declared m)), declared m ≠ declared n := by
          intro m hm e
          apply hp
          rw [← e]
          exact (List.mem_filter.1 hm).2
        rw [distinct_cons_of_not_mem hn, List.filter_cons_of_neg (by exact hp), ← ih,
          distinct_cons_seen hother]

/-! ## lines -/

theorem exists_rule_of_mem_filterMap {rules : List Rule} {number width : Nat} {line : List Char}
    {n : Node} (h : n ∈ rules.filterMap fun rule => rule.node? number width line) :
    ∃ rule ∈ rules, n.kind = rule.kind := by
  obtain ⟨rule, hrule, hnode⟩ := List.mem_filterMap.1 h
  exact ⟨rule, hrule, Rule.kind_of_node? hnode⟩

theorem filter_lineNodes_typeScript (number width : Nat) (line : List Char) :
    ((lineNodes .typeScript number width line).filter fun n => n.kind ∉ typeScriptKinds) =
      lineNodes .javaScript number width line := by
  have hcommon : ∀ n ∈ javaScriptRules.filterMap
      (fun rule => rule.node? number width (Text.trim line)), n.kind ∉ typeScriptKinds := by
    intro n hn
    obtain ⟨rule, hrule, hkind⟩ := exists_rule_of_mem_filterMap hn
    rw [hkind]
    exact kind_not_mem_typeScriptKinds rule hrule
  have hextra : ∀ n ∈ typeScriptExtraRules.filterMap
      (fun rule => rule.node? number width (Text.trim line)), n.kind ∈ typeScriptKinds := by
    intro n hn
    obtain ⟨rule, hrule, hkind⟩ := exists_rule_of_mem_filterMap hn
    rw [hkind]
    exact kind_mem_typeScriptKinds rule hrule
  unfold lineNodes
  -- both languages have the same comments, so they skip the same lines
  rw [show Language.typeScript.commentMarkers = Language.javaScript.commentMarkers from rfl]
  dsimp only
  split
  · rfl
  · show (List.filterMap _ (javaScriptRules ++ typeScriptExtraRules)).filter _ =
      javaScriptRules.filterMap _
    rw [List.filterMap_append, List.filter_append, List.filter_eq_self.2 (by simpa using hcommon),
      List.filter_eq_nil_iff.2 (by simpa using hextra), List.append_nil]

theorem filter_allNodes_typeScript (width number : Nat) (lines : List (List Char)) :
    ((allNodes .typeScript width number lines).filter fun n => n.kind ∉ typeScriptKinds) =
      allNodes .javaScript width number lines := by
  induction lines generalizing number with
  | nil => rfl
  | cons line lines ih =>
    rw [allNodes, allNodes, List.filter_append, filter_lineNodes_typeScript, ih]

/-! ## texts -/

/-- **The rules that only TypeScript has add declarations and change none.**  Without the
interfaces, type aliases, enumerations and namespaces, the declarations of a text in TypeScript are
those in JavaScript, in the same order. -/
theorem typeScript_extends_javaScript (width : Nat) (content : String) :
    ((extract .typeScript width content).filter fun n => n.kind ∉ typeScriptKinds) =
      extract .javaScript width content := by
  unfold extract
  rw [← filter_allNodes_typeScript]
  exact (distinct_filter (fun d => d.1 ∉ typeScriptKinds) [] _).symm


end SourceAtlas.Declaration
