import SourceAtlas.Proofs.RecordSet
import SourceAtlas.Report.Insight

/-!
The remarks on a set of records that grows.

* `Insight.onTopic`: the remark on each topic. Styles exclude each other, and so do ways of styling.
* `Insight.mem_insights_iff`: a remark is made if it is the one on its topic.
* `Insight.GrowsTo`: the same remark, with a count that is at least as large.
* `Insight.onTopic_grows`: what more records do to the remark on a topic.
* `insights_grow_in_order`: the remarks stand in a fixed order, and one more record takes none of
  them away but those on the style and on plain style sheets.
-/

namespace SourceAtlas

namespace Insight

/-! ## topics -/

/-- What a remark is about. -/
def topic : Insight → Nat
  | multiLanguage _ => 0
  | componentOriented _ => 1
  | stateManagement => 2
  | clientRouting => 3
  | apiIntegration => 4
  | objectOriented | functional => 5
  | testing => 6
  | configuration => 7
  | utilityStyling | traditionalStyling => 8
  | featureModules => 9

/-- The remark on a topic, if there is one to make. -/
def onTopic (s : InsightSettings) (records : List Record) : Nat → Option Insight
  | 0 => onLanguages s records
  | 1 => onComponents s records
  | 2 => onAny .stateManagement (isStateful s) records
  | 3 => onAny .clientRouting (importsMention s.routingImportWords) records
  | 4 => onAny .apiIntegration (isService s) records
  | 5 => onStyle s records
  | 6 => onAny .testing (pathMentions s.testPathWords) records
  | 7 => onAny .configuration (pathMentions s.configFileWords) records
  | 8 => onStyling s records
  | 9 => onAny .featureModules (pathMentions s.featurePathWords) records
  | _ => none

theorem insights_eq_filterMap (s : InsightSettings) (set : RecordSet) :
    insights s set = (List.range 10).filterMap (onTopic s set.toList) := rfl

/-- The topics follow the order in which the remarks are declared. -/
theorem ctorIdx_lt_of_topic_lt {a b : Insight} (h : a.topic < b.topic) : a.ctorIdx < b.ctorIdx := by
  -- behind each topic with two remarks, the places are one more ahead of the topics
  have hplace (i : Insight) : i.topic =
      i.ctorIdx - (if i.ctorIdx < 6 then 0 else if i.ctorIdx < 10 then 1 else 2) := by
    cases i <;> rfl
  rw [hplace a, hplace b] at h
  grind

variable {s : InsightSettings} {xs ys : List Record} {i : Insight}

theorem onAny_eq_some_iff {remark : Insight} {test : Record → Bool} :
    onAny remark test xs = some i ↔ remark = i ∧ ∃ r ∈ xs, test r = true := by
  unfold onAny
  split <;> simp_all

theorem onLanguages_eq_some_iff :
    onLanguages s xs = some i ↔
      s.manyLanguages < languageCount xs ∧ multiLanguage (languageCount xs) = i := by
  simp [onLanguages]

theorem onComponents_eq_some_iff :
    onComponents s xs = some i ↔
      0 < xs.countP (isComponent s) ∧ componentOriented (xs.countP (isComponent s)) = i := by
  simp [onComponents]

theorem topic_of_onStyle (h : onStyle s xs = some i) : i.topic = 5 := by
  unfold onStyle at h
  dsimp only at h
  split at h
  · cases h
    rfl
  · split at h
    · cases h
      rfl
    · cases h

theorem onStyling_eq_some_iff :
    onStyling s xs = some i ↔
      (utilityStyling = i ∧ ∃ r ∈ xs, pathMentions s.stylingWords r = true) ∨
      (traditionalStyling = i ∧ (∀ r ∈ xs, pathMentions s.stylingWords r = false) ∧
        ∃ r ∈ xs, pathEndsWith s.stylesheetExtensions r = true) := by
  have hnone : onAny utilityStyling (pathMentions s.stylingWords) xs = none ↔
      ∀ r ∈ xs, pathMentions s.stylingWords r = false := by
    simp [onAny]
  rw [onStyling, Option.or_eq_some_iff, onAny_eq_some_iff, onAny_eq_some_iff, hnone, and_left_comm]

theorem topic_of_onTopic {k : Nat} (h : onTopic s xs k = some i) : i.topic = k := by
  unfold onTopic at h
  split at h
  · obtain ⟨-, rfl⟩ := onLanguages_eq_some_iff.1 h
    rfl
  · obtain ⟨-, rfl⟩ := onComponents_eq_some_iff.1 h
    rfl
  · exact (onAny_eq_some_iff.1 h).1 ▸ rfl
  · exact (onAny_eq_some_iff.1 h).1 ▸ rfl
  · exact (onAny_eq_some_iff.1 h).1 ▸ rfl
  · exact topic_of_onStyle h
  · exact (onAny_eq_some_iff.1 h).1 ▸ rfl
  · exact (onAny_eq_some_iff.1 h).1 ▸ rfl
  · rcases onStyling_eq_some_iff.1 h with ⟨rfl, -⟩ | ⟨rfl, -⟩
    · rfl
    · rfl
  · exact (onAny_eq_some_iff.1 h).1 ▸ rfl
  · cases h

theorem topic_lt (i : Insight) : i.topic < 10 := by
  cases i <;> simp [topic]

variable {set : RecordSet}

theorem mem_insights_iff : i ∈ insights s set ↔ onTopic s set.toList i.topic = some i := by
  rw [insights_eq_filterMap, List.mem_filterMap]
  constructor
  · rintro ⟨k, -, hk⟩
    rwa [topic_of_onTopic hk]
  · intro h
    exact ⟨i.topic, List.mem_range.2 i.topic_lt, h⟩

/-- There is at most one remark on a topic. -/
theorem eq_of_mem_insights {j : Insight} (hi : i ∈ insights s set) (hj : j ∈ insights s set)
    (htopic : i.topic = j.topic) : i = j := by
  rw [mem_insights_iff, htopic] at hi
  exact Option.some.inj (hi.symm.trans (mem_insights_iff.1 hj))

theorem pairwise_insights (s : InsightSettings) (set : RecordSet) :
    (insights s set).Pairwise fun a b => a.ctorIdx < b.ctorIdx := by
  rw [insights_eq_filterMap]
  refine List.pairwise_lt_range.filterMap _ fun k l hkl a ha b hb => ?_
  refine ctorIdx_lt_of_topic_lt ?_
  rwa [topic_of_onTopic ha, topic_of_onTopic hb]

/-! ## more records -/

/-- The same remark; a count in it may be larger. -/
inductive GrowsTo : Insight → Insight → Prop
  | languages {m n : Nat} (h : m ≤ n) : GrowsTo (multiLanguage m) (multiLanguage n)
  | components {m n : Nat} (h : m ≤ n) : GrowsTo (componentOriented m) (componentOriented n)
  | same (i : Insight) : GrowsTo i i

/-- The remarks that more records may take away. -/
def passing : List Insight := [objectOriented, functional, traditionalStyling]

def stylings : List Insight := [utilityStyling, traditionalStyling]

theorem mem_insights_iff_onStyling (h : i ∈ stylings) :
    i ∈ insights s set ↔ onStyling s set.toList = some i := by
  have htopic : i.topic = 8 := by
    rcases List.mem_pair.1 h with rfl | rfl
    · rfl
    · rfl
  rw [mem_insights_iff, htopic, onTopic]

theorem languageCount_le (h : xs ⊆ ys) : languageCount xs ≤ languageCount ys := by
  refine List.countP_mono_left fun l _ hl => ?_
  obtain ⟨r, hr, hlanguage⟩ := List.any_eq_true.1 hl
  exact List.any_eq_true.2 ⟨r, h hr, hlanguage⟩

theorem onLanguages_grows (h : xs ⊆ ys) (hi : onLanguages s xs = some i) :
    ∃ j, onLanguages s ys = some j ∧ i.GrowsTo j := by
  obtain ⟨hmany, rfl⟩ := onLanguages_eq_some_iff.1 hi
  have hle := languageCount_le h
  exact ⟨_, onLanguages_eq_some_iff.2 ⟨Nat.lt_of_lt_of_le hmany hle, rfl⟩, .languages hle⟩

theorem onComponents_grows (h : xs.Sublist ys) (hi : onComponents s xs = some i) :
    ∃ j, onComponents s ys = some j ∧ i.GrowsTo j := by
  obtain ⟨hsome, rfl⟩ := onComponents_eq_some_iff.1 hi
  have hle : xs.countP (isComponent s) ≤ ys.countP (isComponent s) := h.countP_le
  exact ⟨_, onComponents_eq_some_iff.2 ⟨Nat.lt_of_lt_of_le hsome hle, rfl⟩, .components hle⟩

theorem onAny_grows (h : xs ⊆ ys) {remark : Insight} {test : Record → Bool}
    (hi : onAny remark test xs = some i) : ∃ j, onAny remark test ys = some j ∧ i.GrowsTo j := by
  obtain ⟨rfl, r, hr, htest⟩ := onAny_eq_some_iff.1 hi
  exact ⟨_, onAny_eq_some_iff.2 ⟨rfl, r, h hr, htest⟩, .same _⟩

/-- A word in one path is enough for the first way of styling; the second one may only give way to
it. -/
theorem onStyling_grows (h : xs ⊆ ys) (hi : onStyling s xs = some i) :
    ∃ j ∈ stylings, onStyling s ys = some j ∧ (i = utilityStyling → j = utilityStyling) := by
  by_cases hword : ∃ r ∈ ys, pathMentions s.stylingWords r = true
  · exact ⟨_, List.mem_cons_self, onStyling_eq_some_iff.2 (Or.inl ⟨rfl, hword⟩), fun _ => rfl⟩
  · rcases onStyling_eq_some_iff.1 hi with ⟨-, r, hr, hmentions⟩ | ⟨rfl, -, r, hr, hends⟩
    · exact absurd ⟨r, h hr, hmentions⟩ hword
    · have hall : ∀ r ∈ ys, pathMentions s.stylingWords r = false := by simpa using hword
      refine ⟨traditionalStyling, by simp [stylings], ?_, by simp⟩
      exact onStyling_eq_some_iff.2 (Or.inr ⟨rfl, hall, r, h hr, hends⟩)

/-- More records keep the remark on a topic, unless it is a passing one. -/
theorem onTopic_grows (h : xs.Sublist ys) {k : Nat} (hi : onTopic s xs k = some i)
    (hlasting : i ∉ passing) : ∃ j, onTopic s ys k = some j ∧ i.GrowsTo j := by
  have hsub := h.subset
  have htopic := topic_of_onTopic hi
  unfold onTopic at hi ⊢
  split at hi
  · exact onLanguages_grows hsub hi
  · exact onComponents_grows h hi
  · exact onAny_grows hsub hi
  · exact onAny_grows hsub hi
  · exact onAny_grows hsub hi
  · -- both styles are passing
    refine absurd ?_ hlasting
    cases i <;> simp_all [topic, passing]
  · exact onAny_grows hsub hi
  · exact onAny_grows hsub hi
  · obtain ⟨j, -, hj, hutility⟩ := onStyling_grows hsub hi
    have hi' : i = utilityStyling := by
      cases i <;> simp_all [topic, passing]
    exact ⟨j, hj, by rw [hi', hutility hi']; exact .same _⟩
  · exact onAny_grows hsub hi
  · cases hi

end Insight

open Insight in
/-- **Remarks grow with the records.**  The remarks on a set of records stand in the order in which
remarks are declared, each of them once; of the two styles only one is remarked on, and so is only
one of the two ways of styling.  One more record, with a path of its own, takes none of them away
but those on the style and on plain style sheets: all others are made again, with counts that are at
least as large, and where styling was remarked on it still is. -/
theorem insights_grow_in_order (s : InsightSettings) :
    (∀ set, (insights s set).Pairwise (fun a b => a.ctorIdx < b.ctorIdx) ∧
      (insights s set).Nodup ∧
      ¬ (objectOriented ∈ insights s set ∧ functional ∈ insights s set) ∧
      ¬ (utilityStyling ∈ insights s set ∧ traditionalStyling ∈ insights s set)) ∧
    ∀ set r grown, RecordSet.push? set r = some grown →
      (∀ i ∈ insights s set, i ∉ passing → ∃ j ∈ insights s grown, i.GrowsTo j) ∧
      ((∃ i ∈ stylings, i ∈ insights s set) → ∃ j ∈ stylings, j ∈ insights s grown) := by
  refine ⟨fun set => ⟨pairwise_insights s set, ?_, ?_, ?_⟩, fun set r grown hgrown => ?_⟩
  · refine (pairwise_insights s set).imp fun hlt heq => ?_
    exact Nat.ne_of_lt hlt (congrArg Insight.ctorIdx heq)
  · rintro ⟨hclasses, hfunctions⟩
    cases eq_of_mem_insights hclasses hfunctions rfl
  · rintro ⟨hutility, hsheets⟩
    cases eq_of_mem_insights hutility hsheets rfl
  · have hsublist : set.toList.Sublist grown.toList := by
      rw [RecordSet.toList_of_push? hgrown]
      exact List.sublist_append_left _ _
    constructor
    · intro i hi hlasting
      obtain ⟨j, hj, hgrows⟩ := onTopic_grows hsublist (mem_insights_iff.1 hi) hlasting
      exact ⟨j, mem_insights_iff.2 ((topic_of_onTopic hj).symm ▸ hj), hgrows⟩
    · rintro ⟨i, hstyling, hi⟩
      rw [mem_insights_iff_onStyling hstyling] at hi
      obtain ⟨j, hj, hstill, -⟩ := onStyling_grows hsublist.subset hi
      exact ⟨j, hj, (mem_insights_iff_onStyling hj).2 hstill⟩

open Insight in
/-- A component and a plain style sheet, to which the settings of a style framework are added: the
style sheet is no longer remarked on, but the component and the styling are. -/
theorem insights_grow_in_order_framework :
    let file (path : String) : Record := .parsed path .typeScript .patterns [] .blank
    let set := RecordSet.ofList [file "src/Card.tsx", file "src/app.css"]
    ∃ grown, set.push? (file "tailwind.config.js") = some grown ∧
      componentOriented 1 ∈ insights .standard set ∧
      traditionalStyling ∈ insights .standard set ∧
      (∃ j ∈ insights .standard grown, (componentOriented 1).GrowsTo j) ∧
      ∃ j ∈ stylings, j ∈ insights .standard grown := by
  intro file set
  obtain ⟨grown, hgrown⟩ : ∃ grown, set.push? (file "tailwind.config.js") = some grown :=
    Option.isSome_iff_exists.1 ((RecordSet.holds_ofList _).isSome_push?_iff.2 (by decide))
  have hset : set.toList = [file "src/Card.tsx", file "src/app.css"] :=
    RecordSet.toList_ofList_of_nodup (by decide)
  have hcomponent : componentOriented 1 ∈ insights .standard set := by
    rw [mem_insights_iff, hset]
    decide
  have hsheet : traditionalStyling ∈ insights .standard set := by
    rw [mem_insights_iff, hset]
    decide
  obtain ⟨-, hgrow⟩ := insights_grow_in_order .standard
  obtain ⟨hkept, hstyling⟩ := hgrow set _ grown hgrown
  refine ⟨grown, hgrown, hcomponent, hsheet, hkept _ hcomponent (by decide), hstyling ?_⟩
  exact ⟨traditionalStyling, by decide, hsheet⟩

end SourceAtlas
