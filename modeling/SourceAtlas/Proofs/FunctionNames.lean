import SourceAtlas.Proofs.Blanks
import SourceAtlas.Proofs.Extraction
import SourceAtlas.Proofs.LongestName

/-!
The names of functions in JavaScript and TypeScript.

* `CharSet.StandsAlone`: a word stands in a line on its own. `standsAlone_around`: where to look for
  it.
* `FunctionLine`: a line that the rule for functions finds, with what stands before the keyword,
  between it and the name, and after the name.
* `function_name_stands_alone_iff`: the name stands on its own exactly if something separates it
  from the keyword, or if the same word stands elsewhere in the line.
-/

namespace SourceAtlas

/-! ## words on their own -/

/-- A word stands in a line, and no character of the set stands next to it. -/
def CharSet.StandsAlone (set : CharSet) (word line : List Char) : Prop :=
  ∃ before after, line = before ++ word ++ after ∧
    (∀ c ∈ before.getLast?, set.contains c = false) ∧ ∀ c ∈ after.head?, set.contains c = false

namespace CharSet

variable {set : CharSet} {word : List Char}

/-- A character outside the set divides a line: a word stands on one of its sides. -/
theorem standsAlone_append_cons (hne : word ≠ []) (hword : ∀ c ∈ word, set.contains c = true)
    {c : Char} (hc : set.contains c = false) (front back : List Char) :
    set.StandsAlone word (front ++ c :: back) ↔
      set.StandsAlone word front ∨ set.StandsAlone word back := by
  have hmem : c ∉ word := fun h => by
    rw [hword c h] at hc
    cases hc
  constructor
  · rintro ⟨before, after, hline, hbefore, hafter⟩
    rw [List.append_assoc, List.append_eq_append_iff] at hline
    rcases hline with ⟨m, rfl, hback⟩ | ⟨m, rfl, hm⟩
    · -- the word begins at the character or after it
      cases m with
      | nil =>
        obtain ⟨d, ds, rfl⟩ := List.exists_cons_of_ne_nil hne
        rw [List.nil_append, List.cons_append, List.cons.injEq] at hback
        exact absurd (hback.1 ▸ List.mem_cons_self) hmem
      | cons d m =>
        rw [List.cons_append, List.cons.injEq] at hback
        refine Or.inr ⟨m, after, by rw [hback.2, List.append_assoc], ?_, hafter⟩
        intro x hx
        apply hbefore x
        rw [List.getLast?_append, List.getLast?_cons, Option.mem_def.1 hx]
        rfl
    · -- the word begins before the character, and ends before it
      rw [List.append_eq_append_iff] at hm
      rcases hm with ⟨l, rfl, hafter'⟩ | ⟨l, rfl, hl⟩
      · refine Or.inl ⟨before, l, by rw [List.append_assoc], hbefore, ?_⟩
        intro x hx
        apply hafter x
        rw [hafter', List.head?_append, Option.mem_def.1 hx]
        rfl
      · cases l with
        | nil =>
          refine Or.inl ⟨before, [], by simp, hbefore, by simp⟩
        | cons d l =>
          rw [List.cons_append, List.cons.injEq] at hl
          exact absurd (hl.1 ▸ List.mem_append_right _ List.mem_cons_self) hmem
  · rintro (⟨before, after, rfl, hbefore, hafter⟩ | ⟨before, after, rfl, hbefore, hafter⟩)
    · refine ⟨before, after ++ c :: back, by simp, hbefore, ?_⟩
      cases after with
      | nil => simpa using hc
      | cons d after => exact hafter
    · refine ⟨front ++ c :: before, after, by simp, ?_, hafter⟩
      rcases List.eq_nil_or_concat' before with rfl | ⟨init, d, rfl⟩
      · simpa using hc
      · rw [List.getLast?_concat] at hbefore
        rwa [← List.cons_append, ← List.append_assoc, List.getLast?_concat]

theorem not_standsAlone_nil (hne : word ≠ []) : ¬ set.StandsAlone word [] := by
  rintro ⟨before, after, hline, -⟩
  simp [hne] at hline

/-- In a line of characters of the set only the whole line stands on its own. -/
theorem eq_of_standsAlone {line : List Char}
    (hline : ∀ c ∈ line, set.contains c = true) (h : set.StandsAlone word line) : word = line := by
  obtain ⟨before, after, rfl, hbefore, hafter⟩ := h
  have hstart : before = [] := by
    rcases List.eq_nil_or_concat' before with rfl | ⟨init, c, rfl⟩
    · rfl
    · have := hline c (by simp)
      rw [hbefore c (by simp)] at this
      cases this
  have hend : after = [] := by
    cases after with
    | nil => rfl
    | cons c after =>
      have := hline c (by simp)
      rw [hafter c rfl] at this
      cases this
  rw [hstart, hend, List.nil_append, List.append_nil]

/-- The words that stand on their own are the pieces between the characters outside the set. -/
theorem standsAlone_iff_mem_splitOn (hne : word ≠ [])
    (hword : ∀ c ∈ word, set.contains c = true) {line : List Char} :
    set.StandsAlone word line ↔ word ∈ Text.splitOn (fun c => !set.contains c) line := by
  induction h : line.length using Nat.strongRecOn generalizing line with
  | ind k ih =>
    by_cases hall : ∀ c ∈ line, set.contains c = true
    · rw [Text.splitOn_of_forall_not (by simpa using hall), List.mem_singleton]
      refine ⟨eq_of_standsAlone hall, ?_⟩
      rintro rfl
      exact ⟨[], [], by simp, by simp, by simp⟩
    · simp only [not_forall, Bool.not_eq_true] at hall
      obtain ⟨c, hmem, hc⟩ := hall
      obtain ⟨front, back, rfl⟩ := List.append_of_mem hmem
      rw [List.length_append, List.length_cons] at h
      rw [standsAlone_append_cons hne hword hc, Text.splitOn_append_cut (by simp [hc]),
        List.mem_append, ih front.length (by omega) rfl, ih back.length (by omega) rfl]

/-- A word stands before, within or after a part that no character of the set touches. -/
theorem standsAlone_around (hne : word ≠ []) (hword : ∀ c ∈ word, set.contains c = true)
    {before after : List Char} (hbefore : ∀ c ∈ before.getLast?, set.contains c = false)
    (hafter : ∀ c ∈ after.head?, set.contains c = false) (mid : List Char) :
    set.StandsAlone word (before ++ mid ++ after) ↔
      set.StandsAlone word before ∨ set.StandsAlone word mid ∨ set.StandsAlone word after := by
  have hright : set.StandsAlone word (mid ++ after) ↔
      set.StandsAlone word mid ∨ set.StandsAlone word after := by
    cases after with
    | nil => simp [not_standsAlone_nil hne]
    | cons c after =>
      have hc : set.contains c = false := hafter c rfl
      have hdrop := standsAlone_append_cons hne hword hc [] after
      rw [List.nil_append] at hdrop
      rw [standsAlone_append_cons hne hword hc, hdrop]
      simp [not_standsAlone_nil hne]
  rw [List.append_assoc, ← hright]
  rcases List.eq_nil_or_concat' before with rfl | ⟨init, c, rfl⟩
  · simp [not_standsAlone_nil hne]
  · have hc : set.contains c = false := hbefore c (by simp)
    have hdrop := standsAlone_append_cons hne hword hc init []
    rw [List.append_assoc, List.singleton_append, standsAlone_append_cons hne hword hc, hdrop]
    simp [not_standsAlone_nil hne]

end CharSet

namespace Declaration

open Pattern

/-! ## the characters of a name -/

theorem identifier_contains (c : Char) : identifier.contains c = (Text.isWord c || c == '$') := rfl

theorem identifier_eq_false_of_isBlank {c : Char} (h : Text.isBlank c = true) :
    identifier.contains c = false := by
  have hdollar : (c == '$') = false := by
    rw [beq_eq_false_iff_ne]
    rintro rfl
    exact absurd h (by decide)
  rw [identifier_contains, Text.isWord_eq_false_of_isBlank h, hdollar]
  rfl

theorem isBlank_eq_false_of_identifier {c : Char} (h : identifier.contains c = true) :
    Text.isBlank c = false := by
  by_contra hblank
  rw [identifier_eq_false_of_isBlank (Bool.not_eq_false _ ▸ hblank)] at h
  cases h

theorem identifier_of_lowerOrLine {c : Char} (h : lowerOrLine.contains c = true) :
    identifier.contains c = true := by
  have hcases : ('a' ≤ c ∧ c ≤ 'z') ∨ c = '_' := by
    simpa [lowerOrLine, CharSet.adding, CharSet.contains] using h
  rcases hcases with ⟨hfirst, hlast⟩ | rfl
  · have hascii : c.toNat < 128 := Nat.lt_of_le_of_lt hlast (by decide)
    have hlower : c.isLower = true := by
      show (decide (97 ≤ c.val) && decide (c.val ≤ 122)) = true
      rw [Bool.and_eq_true]
      exact ⟨decide_eq_true hfirst, decide_eq_true hlast⟩
    have halphanum : c.isAlphanum = true := by
      show (c.isUpper || c.isLower || c.isDigit) = true
      rw [hlower, Bool.or_true, Bool.true_or]
    rw [identifier_contains, Text.isWord, if_pos hascii, halphanum]
    rfl
  · decide

/-! ## the parts of the rule -/

/-- Nothing, or a text that ends with a blank. -/
def EndsBlank (cs : List Char) : Prop := ∀ c ∈ cs.getLast?, Text.isBlank c = true

theorem EndsBlank.append {cs ds : List Char} (hc : EndsBlank cs) (hd : EndsBlank ds) :
    EndsBlank (cs ++ ds) := by
  intro x hx
  rcases List.eq_nil_or_concat' ds with rfl | ⟨init, d, rfl⟩
  · exact hc x (by simpa using hx)
  · exact hd x (by simpa using hx)

theorem reads_keyword {w : String} {r s : Reading} (h : (keyword w).Fits r s) :
    ∃ cs, EndsBlank cs ∧ r.Reads cs s := by
  obtain _ | _ | _ | ⟨hword, hgap⟩ := h
  obtain ⟨cs, hne, hcs, hreads⟩ := hgap.reads_stretch
  refine ⟨w.toList ++ cs, ?_, hword.reads_text.trans hreads⟩
  intro x hx
  rw [List.getLast?_append_of_ne_nil _ hne] at hx
  exact hcs x (List.mem_of_mem_getLast? hx)

theorem reads_maybe {w : String} {r s : Reading} (h : (maybe w).Fits r s) :
    ∃ cs, EndsBlank cs ∧ r.Reads cs s := by
  rcases h.of_optional with h | rfl
  · exact reads_keyword h
  · exact ⟨[], by simp [EndsBlank], .refl _⟩

theorem reads_exportMark {r s : Reading} (h : exportMark.Fits r s) :
    ∃ cs, EndsBlank cs ∧ r.Reads cs s := by
  rcases h.of_optional with h | rfl
  · obtain ⟨m, hexport, h⟩ := h.of_sequence_cons
    obtain ⟨m', hdefault, h⟩ := h.of_sequence_cons
    cases h.of_sequence_nil
    obtain ⟨cs, hcs, hreads⟩ := reads_keyword hexport
    obtain ⟨ds, hds, hreads'⟩ := reads_maybe hdefault
    exact ⟨cs ++ ds, hcs.append hds, hreads.trans hreads'⟩
  · exact ⟨[], by simp [EndsBlank], .refl _⟩

/-- What may stand between the keyword of a function and its name: a star, and blanks around it. -/
def IsLink (link : List Char) : Prop :=
  ∃ front star back, link = front ++ star ++ back ∧ (∀ c ∈ front, Text.isBlank c = true) ∧
    (star = [] ∨ star = ['*']) ∧ ∀ c ∈ back, Text.isBlank c = true

theorem IsLink.not_identifier {link : List Char} (h : IsLink link) :
    ∀ c ∈ link, identifier.contains c = false := by
  obtain ⟨front, star, back, rfl, hfront, hstar, hback⟩ := h
  intro c hc
  rw [List.mem_append, List.mem_append] at hc
  rcases hc with (hc | hc) | hc
  · exact identifier_eq_false_of_isBlank (hfront c hc)
  · rcases hstar with rfl | rfl
    · cases hc
    · rw [List.mem_singleton.1 hc]
      decide
  · exact identifier_eq_false_of_isBlank (hback c hc)

/-- A line that declares a function: the keyword stands at its beginning or after a blank, and its
name goes on as long as there are identifier characters. -/
structure FunctionLine (name line before link after : List Char) : Prop where
  line_eq : line = before ++ ("function".toList ++ link ++ name) ++ after
  before_blank : EndsBlank before
  link_ok : IsLink link
  name_ne_nil : name ≠ []
  name_identifier : ∀ c ∈ name, identifier.contains c = true
  after_cut : ∀ c ∈ after.head?, identifier.contains c = false

/-- The parts of the rule before the name. -/
def functionOpening : List Pattern :=
  [edge .start, exportMark, maybe "async", text "function", blanks, optional (text "*"), blanks]

theorem reads_functionOpening {r s : Reading} (h : (sequence functionOpening).Fits r s) :
    r.done = [] ∧ ∃ before link, EndsBlank before ∧ IsLink link ∧
      r.Reads (before ++ ("function".toList ++ link)) s := by
  obtain ⟨r₁, hstart, h⟩ := h.of_sequence_cons
  obtain ⟨r₂, hexport, h⟩ := h.of_sequence_cons
  obtain ⟨r₃, hasync, h⟩ := h.of_sequence_cons
  obtain ⟨r₄, hfunction, h⟩ := h.of_sequence_cons
  obtain ⟨r₅, hblanks, h⟩ := h.of_sequence_cons
  obtain ⟨r₆, hstar, h⟩ := h.of_sequence_cons
  obtain ⟨r₇, hblanks', h⟩ := h.of_sequence_cons
  cases h.of_sequence_nil
  cases hstart with
  | edge he =>
    have hdone : r.done = [] := by simpa [Edge.holds] using he
    obtain ⟨as, has, hreads₁⟩ := reads_exportMark hexport
    obtain ⟨bs, hbs, hreads₂⟩ := reads_maybe hasync
    obtain ⟨front, hfront, hreads₄⟩ := hblanks.reads_run
    obtain ⟨star, hstar, hreads₅⟩ : ∃ star, (star = [] ∨ star = ['*']) ∧ r₅.Reads star r₆ := by
      rcases hstar.of_optional with h | rfl
      · exact ⟨['*'], Or.inr rfl, h.reads_text⟩
      · exact ⟨[], Or.inl rfl, .refl _⟩
    obtain ⟨back, hback, hreads₆⟩ := hblanks'.reads_run
    have hbefore := hreads₁.trans hreads₂
    have hlink := (hreads₄.trans hreads₅).trans hreads₆
    exact ⟨hdone, as ++ bs, front ++ star ++ back, has.append hbs,
      ⟨front, star, back, rfl, hfront, hstar, hback⟩,
      hbefore.trans (hfunction.reads_text.trans hlink)⟩

theorem functionLine_of_find? {line : List Char} {kept : Option (List Char)}
    (h : (sequence (functionOpening ++ [nameFrom lowerOrLine identifier])).program.find? line =
      some kept) :
    ∃ name before link after, kept = some name ∧ FunctionLine name line before link after := by
  obtain ⟨done, rest, r, c, name, after, -, hfits, hline, hkept, hc, hname, hafter⟩ :=
    exists_name_of_find? h
  obtain ⟨hdone, before, link, hbefore, hlink, hreads⟩ := reads_functionOpening hfits
  refine ⟨c :: name, before, link, after, hkept, ?_, hbefore, hlink, List.cons_ne_nil c name,
    List.forall_mem_cons.2 ⟨identifier_of_lowerOrLine hc, hname⟩, hafter⟩
  -- nothing stands before what the opening reads
  rw [hline, hreads.done, show done = [] from hdone]
  simp only [List.nil_append, List.append_assoc]

/-- Only one rule of the two languages finds functions. -/
theorem program_of_functionDeclaration {language : Language}
    (hlanguage : language = .javaScript ∨ language = .typeScript) {rule : Rule}
    (hrule : rule ∈ catalog language) (hkind : rule.kind = .functionDeclaration) :
    rule.program =
      (sequence (functionOpening ++ [nameFrom lowerOrLine identifier])).program := by
  have hshared : ∀ rule ∈ javaScriptRules, rule.kind = .functionDeclaration → rule.program =
      (sequence (functionOpening ++ [nameFrom lowerOrLine identifier])).program := by
    simp [javaScriptRules, lineRule, Declaration.rule, functionOpening]
  have hextra : ∀ rule ∈ typeScriptExtraRules, rule.kind ≠ .functionDeclaration := by decide
  rcases hlanguage with rfl | rfl
  · exact hshared rule hrule hkind
  · rcases List.mem_append.1 hrule with hrule | hrule
    · exact hshared rule hrule hkind
    · exact absurd hkind (hextra rule hrule)

theorem FunctionLine.standsAlone_iff {name line before link after : List Char}
    (h : FunctionLine name line before link after) :
    identifier.StandsAlone name line ↔
      link ≠ [] ∨ identifier.StandsAlone name before ∨ identifier.StandsAlone name after := by
  have hbefore : ∀ c ∈ before.getLast?, identifier.contains c = false := fun c hc =>
    identifier_eq_false_of_isBlank (h.before_blank c hc)
  have hkeyword : "function".toList.all identifier.contains = true := by decide +kernel
  -- within the middle part the name stands on its own exactly if it does not touch the keyword
  have hmid : identifier.StandsAlone name ("function".toList ++ link ++ name) ↔ link ≠ [] := by
    constructor
    · rintro halone rfl
      have hall : ∀ c ∈ "function".toList ++ [] ++ name, identifier.contains c = true := by
        intro c hc
        rw [List.append_nil, List.mem_append] at hc
        rcases hc with hc | hc
        · exact List.all_eq_true.1 hkeyword c hc
        · exact h.name_identifier c hc
      have hlength := congrArg List.length (CharSet.eq_of_standsAlone hall halone)
      rw [List.append_nil, List.length_append] at hlength
      simp at hlength
    · intro hlink
      refine ⟨"function".toList ++ link, [], by simp, ?_, by simp⟩
      intro c hc
      rw [List.getLast?_append_of_ne_nil _ hlink] at hc
      exact h.link_ok.not_identifier c (List.mem_of_mem_getLast? hc)
  rw [h.line_eq,
    CharSet.standsAlone_around h.name_ne_nil h.name_identifier hbefore h.after_cut, hmid]
  exact or_left_comm

/-- The name is kept as it stands in the line. -/
theorem FunctionLine.nameOr_toList {name line before link after : List Char}
    (h : FunctionLine name line before link after) :
    (Node.nameOr (nameIn (some name))).toList = name := by
  have htrim : Text.trim name = name :=
    Text.trim_eq_self_of_forall fun c hc => isBlank_eq_false_of_identifier (h.name_identifier c hc)
  have hname : nameIn (some name) = some (String.ofList name) := by
    rw [nameIn, Option.map_some, htrim]
  have hne : String.ofList name ≠ "" := by
    intro e
    apply h.name_ne_nil
    rw [← String.toList_ofList (l := name), e]
    rfl
  rw [hname]
  simp [Node.nameOr, hne]

/-- **The name of a function stands on its own** in its line exactly if something separates it from
the keyword, or if the same word stands elsewhere in the line. -/
theorem function_name_stands_alone_iff {language : Language}
    (hlanguage : language = .javaScript ∨ language = .typeScript) (width : Nat) (content : String)
    {n : Node} (hn : n ∈ extract language width content) (hkind : n.kind = .functionDeclaration) :
    1 ≤ n.line ∧ ∃ line before link after,
      (Text.splitLines content.toList)[n.line - 1]? = some line ∧
      FunctionLine n.name.toList (Text.trim line) before link after ∧
      (identifier.StandsAlone n.name.toList (Text.trim line) ↔
        link ≠ [] ∨ identifier.StandsAlone n.name.toList before ∨
          identifier.StandsAlone n.name.toList after) := by
  obtain ⟨i, line, hline, hmem⟩ := mem_allNodes_iff.1 ((distinct_sublist [] _).subset hn)
  obtain ⟨-, rule, hrule, hnode⟩ := mem_lineNodes_iff.1 hmem
  have hprogram := program_of_functionDeclaration hlanguage hrule (Rule.kind_of_node? hnode ▸ hkind)
  obtain ⟨kept, hfind, -, rfl⟩ := Rule.node?_eq_some_iff.1 hnode
  rw [hprogram] at hfind
  obtain ⟨name, before, link, after, rfl, hfunction⟩ := functionLine_of_find? hfind
  have hname : (Node.ofLine rule.kind (nameIn (some name)) (1 + i)
      (String.ofList (Text.shorten width (Text.trim line)))).name.toList = name :=
    hfunction.nameOr_toList
  rw [hname]
  refine ⟨Nat.le_add_right 1 i, line, before, link, after, ?_, hfunction,
    hfunction.standsAlone_iff⟩
  show (Text.splitLines content.toList)[1 + i - 1]? = some line
  rwa [Nat.add_sub_cancel_left]

/-- A generator below a comment: a star and a blank keep its name from the keyword. -/
theorem function_name_stands_alone_iff_generator :
    ∃ n ∈ extract .typeScript 80 "// pages\n  export default async function* load$1(load) \x7b",
      n.name = "load$1" ∧ n.line = 2 ∧
        identifier.StandsAlone n.name.toList
          "export default async function* load$1(load) \x7b".toList := by
  have hfound : (extract .typeScript 80
      "// pages\n  export default async function* load$1(load) \x7b").map
        (fun n => (n.kind, n.name, n.line)) =
      [(.functionDeclaration, "load$1", 2), (.exportDeclaration, "anonymous", 2)] := by
    decide +kernel
  obtain ⟨n, hn, e⟩ := List.mem_map.1 (hfound ▸ List.mem_cons_self)
  simp only [Prod.mk.injEq] at e
  obtain ⟨hkind, hname, hnumber⟩ := e
  obtain ⟨-, line, before, link, after, hline, hfunction, hiff⟩ :=
    function_name_stands_alone_iff (Or.inr rfl) 80 _ hn hkind
  rw [hnumber] at hline
  have htext : Text.trim line = "export default async function* load$1(load) \x7b".toList := by
    have : line = "  export default async function* load$1(load) \x7b".toList :=
      Option.some.inj (hline.symm.trans (by decide +kernel))
    rw [this]
    decide +kernel
  rw [htext] at hfunction hiff
  refine ⟨n, hn, hname, hnumber, hiff.2 (Or.inl ?_)⟩
  rintro rfl
  -- the keyword and the name do not touch anywhere in the line
  have hinfix : "function".toList ++ n.name.toList <:+:
      "export default async function* load$1(load) \x7b".toList :=
    ⟨before, after, by rw [hfunction.line_eq, List.append_nil]⟩
  rw [hname] at hinfix
  exact absurd hinfix (by decide +kernel)

/-- A call that begins with the letters of the keyword: the rest of its word is taken for the name
of a function. -/
theorem function_name_within_word :
    ∃ n ∈ extract .javaScript 80 "functions.push(f);",
      n.kind = .functionDeclaration ∧ n.name = "s" ∧ n.line = 1 ∧
        Text.splitLines "functions.push(f);".toList = ["functions.push(f);".toList] ∧
        ¬ identifier.StandsAlone n.name.toList (Text.trim "functions.push(f);".toList) := by
  have hfound : (extract .javaScript 80 "functions.push(f);").map
      (fun n => (n.kind, n.name, n.line)) = [(.functionDeclaration, "s", 1)] := by
    decide +kernel
  obtain ⟨n, hn, e⟩ := List.mem_map.1 (hfound ▸ List.mem_singleton_self _)
  simp only [Prod.mk.injEq] at e
  obtain ⟨hkind, hname, hnumber⟩ := e
  refine ⟨n, hn, hkind, hname, hnumber, by decide +kernel, ?_⟩
  have hword : "s".toList.all identifier.contains = true := by decide +kernel
  rw [hname, CharSet.standsAlone_iff_mem_splitOn (by decide) (List.all_eq_true.1 hword)]
  decide +kernel

end Declaration

end SourceAtlas
