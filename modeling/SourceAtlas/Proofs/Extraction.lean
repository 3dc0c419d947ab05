import SourceAtlas.Declaration.Extract
import SourceAtlas.Proofs.Lines

/-!
The declarations of a text and of its parts.

* `declared`: kind and name of a unit, which decide whether it is listed.
* `distinct_append`, `distinct_eq_filter`: the first units of each kind and name in a list that is
  put together from two.
* `mem_allNodes_iff`, `mem_lineNodes_iff`, `Rule.node?_eq_some_iff`: where a unit comes from: a
  line, a rule that is tried on it, and a match that names no control keyword.
* `lowered`: a unit some lines further down. Rules and comparison do not see the line, so units are
  moved before or after they are selected (`distinct_map_lowered`).
* `extract_append`: the declarations of two texts, one below the other.
-/

namespace SourceAtlas.Declaration

/-- What a unit declares. -/
def declared (n : Node) : NodeKind × String := (n.kind, n.name)

theorem any_sameDeclaration {seen : List Node} {n : Node} :
    seen.any (sameDeclaration n) = true ↔ declared n ∈ seen.map declared := by
  simp only [List.any_eq_true, List.mem_map, sameDeclaration, declared, Bool.and_eq_true,
    beq_iff_eq, Prod.mk.injEq]
  exact exists_congr fun m => and_congr_right fun _ => and_congr eq_comm eq_comm

/-! ## first units -/

theorem distinct_cons_of_mem {seen : List Node} {n : Node} (h : declared n ∈ seen.map declared)
    (rest : List Node) : distinct seen (n :: rest) = distinct seen rest := by
  rw [distinct, if_pos (any_sameDeclaration.2 h)]

theorem distinct_cons_of_not_mem {seen : List Node} {n : Node} (h : declared n ∉ seen.map declared)
    (rest : List Node) : distinct seen (n :: rest) = n :: distinct (n :: seen) rest := by
  rw [distinct, if_neg fun hany => h (any_sameDeclaration.1 hany)]

/-- Units are dropped, and nothing else happens. -/
theorem distinct_sublist (seen ns : List Node) : (distinct seen ns).Sublist ns := by
  induction ns generalizing seen with
  | nil => exact List.Sublist.refl []
  | cons n ns ih =>
    by_cases hn : declared n ∈ seen.map declared
    · rw [distinct_cons_of_mem hn]
      exact (ih seen).cons n
    · rw [distinct_cons_of_not_mem hn]
      exact (ih (n :: seen)).cons_cons n

/-- Only what the units seen before declare matters. -/
theorem distinct_congr {seen seen' : List Node}
    (h : ∀ d, d ∈ seen.map declared ↔ d ∈ seen'.map declared) (ns : List Node) :
    distinct seen ns = distinct seen' ns := by
  induction ns generalizing seen seen' with
  | nil => rfl
  | cons n ns ih =>
    by_cases hn : declared n ∈ seen.map declared
    · rw [distinct_cons_of_mem hn, distinct_cons_of_mem ((h _).1 hn), ih h]
    · rw [distinct_cons_of_not_mem hn, distinct_cons_of_not_mem fun hn' => hn ((h _).2 hn')]
      refine congrArg _ (ih fun d => ?_)
      simp only [List.map_cons, List.mem_cons, h]

/-- The units of the second list are compared with those found in the first one. -/
theorem distinct_append (seen xs ys : List Node) :
    distinct seen (xs ++ ys) = distinct seen xs ++ distinct (distinct seen xs ++ seen) ys := by
  induction xs generalizing seen with
  | nil => rfl
  | cons x xs ih =>
    by_cases hx : declared x ∈ seen.map declared
    · rw [List.cons_append, distinct_cons_of_mem hx, distinct_cons_of_mem hx, ih]
    · rw [List.cons_append, distinct_cons_of_not_mem hx, distinct_cons_of_not_mem hx, ih,
        List.cons_append]
      refine congrArg _ (congrArg _ (distinct_congr (fun d => ?_) ys))
      simp only [List.map_append, List.map_cons, List.mem_append, List.mem_cons]
      tauto

/-- Units seen before drop those that declare the same, also when they are looked at last. -/
theorem distinct_append_seen (seen more ns : List Node) :
    distinct (seen ++ more) ns =
      (distinct more ns).filter fun n => declared n ∉ seen.map declared := by
  induction ns generalizing more with
  | nil => rfl
  | cons n ns ih =>
    have hboth : declared n ∈ (seen ++ more).map declared ↔
        declared n ∈ seen.map declared ∨ declared n ∈ more.map declared := by
      rw [List.map_append, List.mem_append]
    by_cases hmore : declared n ∈ more.map declared
    · rw [distinct_cons_of_mem (hboth.2 (Or.inr hmore)), distinct_cons_of_mem hmore, ih]
    · rw [distinct_cons_of_not_mem hmore]
      have hswap : distinct (n :: (seen ++ more)) ns = distinct (seen ++ n :: more) ns := by
        refine distinct_congr (fun d => ?_) ns
        simp only [List.map_append, List.map_cons, List.mem_append, List.mem_cons]
        tauto
      by_cases hseen : declared n ∈ seen.map declared
      · -- `n` is dropped on the left at once and on the right by the filter
        have hdropped := hboth.2 (Or.inl hseen)
        have hknown : distinct (seen ++ more) ns = distinct (n :: (seen ++ more)) ns := by
          refine distinct_congr (fun d => ?_) ns
          rw [List.map_cons, List.mem_cons]
          constructor
          · exact Or.inr
          · rintro (rfl | hd)
            · exact hdropped
            · exact hd
        rw [distinct_cons_of_mem hdropped, List.filter_cons_of_neg (by simpa using hseen), hknown,
          hswap, ih]
      · have hneither : declared n ∉ (seen ++ more).map declared := by
          rw [hboth, not_or]
          exact ⟨hseen, hmore⟩
        rw [distinct_cons_of_not_mem hneither, List.filter_cons_of_pos (by simpa using hseen),
          hswap, ih]

theorem distinct_eq_filter (seen ns : List Node) :
    distinct seen ns = (distinct [] ns).filter fun n => declared n ∉ seen.map declared := by
  rw [← distinct_append_seen, List.append_nil]

/-! ## where a unit comes from -/

/-- The name in a kept part of a line. -/
def nameIn (kept : Option (List Char)) : Option String :=
  kept.map fun cs => String.ofList (Text.trim cs)

theorem Rule.node?_of_find? {rule : Rule} {line : List Char} {kept : Option (List Char)}
    (h : rule.program.find? line = some kept) (number width : Nat) :
    rule.node? number width line =
      if rule.kind.family? = some .functions && (nameIn kept).any controlKeywords.contains then none
      else some (.ofLine rule.kind (nameIn kept) number
        (String.ofList (Text.shorten width line))) := by
  simp only [Rule.node?, h]
  rfl

/-- A rule gives a unit if its pattern is found and does not take a control keyword for the name of
a function. -/
theorem Rule.node?_eq_some_iff {rule : Rule} {number width : Nat} {line : List Char} {n : Node} :
    rule.node? number width line = some n ↔
      ∃ kept, rule.program.find? line = some kept ∧
        (rule.kind.family? = some .functions → ∀ name ∈ nameIn kept, name ∉ controlKeywords) ∧
        n = .ofLine rule.kind (nameIn kept) number (String.ofList (Text.shorten width line)) := by
  cases hfind : rule.program.find? line with
  | none => simp [Rule.node?, hfind]
  | some kept =>
    have hcontrol : (rule.kind.family? = some .functions &&
        (nameIn kept).any controlKeywords.contains) = true ↔
        ¬ (rule.kind.family? = some .functions → ∀ name ∈ nameIn kept, name ∉ controlKeywords) := by
      cases nameIn kept <;> simp
    simp only [Rule.node?_of_find? hfind, hcontrol, Option.some.injEq, exists_eq_left']
    by_cases h : rule.kind.family? = some .functions → ∀ name ∈ nameIn kept, name ∉ controlKeywords
    · rw [if_neg (not_not_intro h), Option.some.injEq]
      constructor
      · intro e
        exact ⟨h, e.symm⟩
      · rintro ⟨-, rfl⟩
        rfl
    · rw [if_pos h]
      constructor
      · intro e
        cases e
      · rintro ⟨h', -⟩
        exact absurd h' h

theorem Rule.kind_of_node? {rule : Rule} {number width : Nat} {line : List Char} {n : Node}
    (h : rule.node? number width line = some n) : n.kind = rule.kind := by
  obtain ⟨kept, -, -, rfl⟩ := Rule.node?_eq_some_iff.1 h
  rfl

theorem mem_lineNodes_iff {language : Language} {number width : Nat} {line : List Char} {n : Node} :
    n ∈ lineNodes language number width line ↔
      isSkipped language.commentMarkers (Text.trim line) = false ∧
        ∃ rule ∈ catalog language, rule.node? number width (Text.trim line) = some n := by
  unfold lineNodes
  dsimp only
  cases isSkipped language.commentMarkers (Text.trim line) <;> simp

theorem mem_allNodes_iff {language : Language} {width number : Nat} {lines : List (List Char)}
    {n : Node} :
    n ∈ allNodes language width number lines ↔
      ∃ i line, lines[i]? = some line ∧ n ∈ lineNodes language (number + i) width line := by
  induction lines generalizing number with
  | nil => simp [allNodes]
  | cons first lines ih =>
    rw [allNodes, List.mem_append, ih]
    constructor
    · rintro (h | ⟨i, line, hline, h⟩)
      · exact ⟨0, first, rfl, h⟩
      · refine ⟨i + 1, line, hline, ?_⟩
        rwa [show number + (i + 1) = number + 1 + i by omega]
    · rintro ⟨i, line, hline, h⟩
      cases i with
      | zero =>
        cases hline
        exact Or.inl h
      | succ i =>
        refine Or.inr ⟨i, line, hline, ?_⟩
        rwa [show number + 1 + i = number + (i + 1) by omega]

/-! ## units further down -/

/-- The unit with `k` more lines above it. -/
def lowered (k : Nat) (n : Node) : Node := { n with line := n.line + k }

@[simp] theorem declared_lowered (k : Nat) (n : Node) : declared (lowered k n) = declared n := rfl

theorem map_declared_lowered (k : Nat) (ns : List Node) :
    (ns.map (lowered k)).map declared = ns.map declared := by
  rw [List.map_map]
  exact List.map_congr_left fun n _ => declared_lowered k n

theorem distinct_map_lowered (k : Nat) (seen ns : List Node) :
    distinct (seen.map (lowered k)) (ns.map (lowered k)) = (distinct seen ns).map (lowered k) := by
  induction ns generalizing seen with
  | nil => rfl
  | cons n ns ih =>
    by_cases hn : declared n ∈ seen.map declared
    · have hk : declared (lowered k n) ∈ (seen.map (lowered k)).map declared := by
        rwa [map_declared_lowered, declared_lowered]
      rw [List.map_cons, distinct_cons_of_mem hk, distinct_cons_of_mem hn, ih]
    · have hk : declared (lowered k n) ∉ (seen.map (lowered k)).map declared := by
        rwa [map_declared_lowered, declared_lowered]
      rw [List.map_cons, distinct_cons_of_not_mem hk, distinct_cons_of_not_mem hn, List.map_cons,
        ← ih (n :: seen), List.map_cons]

theorem Rule.node?_add (rule : Rule) (number width k : Nat) (line : List Char) :
    rule.node? (number + k) width line = (rule.node? number width line).map (lowered k) := by
  unfold Rule.node?
  split
  · rfl
  · dsimp only
    split
    · rfl
    · rfl

theorem lineNodes_add (language : Language) (number width k : Nat) (line : List Char) :
    lineNodes language (number + k) width line =
      (lineNodes language number width line).map (lowered k) := by
  unfold lineNodes
  dsimp only
  split
  · rfl
  · rw [List.map_filterMap]
    exact List.filterMap_congr fun rule _ => rule.node?_add number width k _

theorem allNodes_add (language : Language) (width number k : Nat) (lines : List (List Char)) :
    allNodes language width (number + k) lines =
      (allNodes language width number lines).map (lowered k) := by
  induction lines generalizing number with
  | nil => rfl
  | cons line lines ih =>
    rw [allNodes, allNodes, lineNodes_add, Nat.add_right_comm, ih, List.map_append]

/-- The lines below are numbered on. -/
theorem allNodes_append (language : Language) (width number : Nat)
    (above below : List (List Char)) :
    allNodes language width number (above ++ below) =
      allNodes language width number above ++
        allNodes language width (number + above.length) below := by
  induction above generalizing number with
  | nil => rfl
  | cons line above ih =>
    rw [List.cons_append, allNodes, allNodes, ih, List.append_assoc, List.length_cons,
      Nat.add_right_comm, Nat.add_assoc]

/-! ## texts -/

/-- Where a text stands above another one, its declarations come first and unchanged; of those of
the lower text the ones remain that the upper text does not declare, lowered by its lines. -/
theorem extract_append (language : Language) (width : Nat) (a b : String) :
    extract language width (a ++ "\n" ++ b) =
      extract language width a ++
        ((extract language width b).filter fun n =>
          declared n ∉ (extract language width a).map declared).map
            (lowered (Text.countLines a)) := by
  have htext : (a ++ "\n" ++ b).toList = a.toList ++ '\n' :: b.toList := by
    simp [String.toList_append]
  have hunits : allNodes language width 1 (Text.splitLines (a ++ "\n" ++ b).toList) =
      allNodes language width 1 (Text.splitLines a.toList) ++
        (allNodes language width 1 (Text.splitLines b.toList)).map
          (lowered (Text.countLines a)) := by
    rw [htext, Text.splitLines_append, allNodes_append, allNodes_add, Text.length_splitLines_toList]
  have hlower := distinct_map_lowered (Text.countLines a) []
    (allNodes language width 1 (Text.splitLines b.toList))
  rw [List.map_nil] at hlower
  unfold extract
  rw [hunits, distinct_append, List.append_nil, distinct_eq_filter (distinct [] _), hlower,
    List.filter_map]
  rfl

-- the second `f` is dropped, and `g` stands below three lines
example : (extract .python 80 "def f():\n\ndef f():\ndef g():").map (fun n => (n.name, n.line)) =
    [("f", 1), ("g", 4)] := by
  decide +kernel

end SourceAtlas.Declaration
