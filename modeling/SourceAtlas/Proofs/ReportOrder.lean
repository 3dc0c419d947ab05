import Mathlib.Data.List.Sort
import SourceAtlas.Proofs.LanguageTotals
import SourceAtlas.Proofs.RecordSet
import SourceAtlas.Report.Basic

/-!
The order of the records shows in a report only where there are ties.

* `mergeSort_eq_of_perm`: sorting forgets the order, unless two elements are equally great.
* `pairwise_mergeSort_descending`: equally great elements keep their order.
* `insights_perm`: the remarks depend on which records there are, not on their order.
* `Report.ofRecords_perm`: two sets with the same records in any order have the same tree, drawing,
  remarks and totals, and the same ranked files and languages up to the order of ties.
-/

namespace SourceAtlas

/-! ## sorting -/

theorem perm_mergeSort {α : Type} (le : α → α → Bool) {xs ys : List α} (h : xs.Perm ys) :
    (xs.mergeSort le).Perm (ys.mergeSort le) :=
  (List.mergeSort_perm xs le).trans (h.trans (List.mergeSort_perm ys le).symm)

/-- Two lists with the same elements are sorted into the same list, if no two different elements are
equally great. -/
theorem mergeSort_eq_of_perm {α : Type} {le : α → α → Bool}
    (trans : ∀ a b c, le a b = true → le b c = true → le a c = true)
    (total : ∀ a b, (le a b || le b a) = true) {xs ys : List α} (hperm : xs.Perm ys)
    (hties : ∀ a ∈ xs, ∀ b ∈ xs, le a b = true → le b a = true → a = b) :
    xs.mergeSort le = ys.mergeSort le := by
  refine (perm_mergeSort le hperm).eq_of_pairwise (fun a b ha hb => ?_)
    (List.pairwise_mergeSort trans total xs) (List.pairwise_mergeSort trans total ys)
  have hb' : b ∈ xs := hperm.mem_iff.2 ((List.mergeSort_perm ys le).mem_iff.1 hb)
  exact hties a ((List.mergeSort_perm xs le).mem_iff.1 ha) b hb'

theorem descending_trans {α : Type} (size : α → Nat) (a b c : α)
    (hab : decide (size b ≤ size a) = true) (hbc : decide (size c ≤ size b) = true) :
    decide (size c ≤ size a) = true :=
  decide_eq_true (Nat.le_trans (of_decide_eq_true hbc) (of_decide_eq_true hab))

theorem descending_total {α : Type} (size : α → Nat) (a b : α) :
    (decide (size b ≤ size a) || decide (size a ≤ size b)) = true := by
  rw [Bool.or_eq_true, decide_eq_true_iff, decide_eq_true_iff]
  exact Nat.le_total (size b) (size a)

/-- Sorted with the greatest first, two lists with the same elements agree if no two different
elements have the same number. -/
theorem mergeSort_descending_eq {α : Type} (size : α → Nat) {xs ys : List α} (hperm : xs.Perm ys)
    (hties : ∀ a ∈ xs, ∀ b ∈ xs, size a = size b → a = b) :
    xs.mergeSort (fun a b => decide (size b ≤ size a)) =
      ys.mergeSort (fun a b => decide (size b ≤ size a)) := by
  refine mergeSort_eq_of_perm (descending_trans size) (descending_total size) hperm
    fun a ha b hb hab hba => hties a ha b hb ?_
  exact Nat.le_antisymm (of_decide_eq_true hba) (of_decide_eq_true hab)

/-- Sorted with the greatest first, equally great elements keep their order: what holds between
earlier and later elements of a list still holds between them. -/
theorem pairwise_mergeSort_descending {α : Type} (size : α → Nat) {r : α → α → Prop} {xs : List α}
    (h : xs.Pairwise r) :
    (xs.mergeSort fun a b => decide (size b ≤ size a)).Pairwise fun a b =>
      size b < size a ∨ size b = size a ∧ r a b := by
  induction xs with
  | nil => simp
  | cons a xs ih =>
    obtain ⟨hfirst, hrest⟩ := List.pairwise_cons.1 h
    -- the first element goes behind the greater ones and before all others
    obtain ⟨front, back, hsort, hsort', hgreater⟩ :=
      List.mergeSort_cons (descending_trans size) (descending_total size) a xs
    have hsorted :=
      List.pairwise_mergeSort (descending_trans size) (descending_total size) (a :: xs)
    have hothers := ih hrest
    rw [hsort] at hsorted ⊢
    rw [hsort'] at hothers
    obtain ⟨hpre, hpost, hacross⟩ := List.pairwise_append.1 hothers
    have hbehind : ∀ b ∈ front, size a < size b := by
      intro b hb
      simpa using hgreater b hb
    have hback : ∀ c ∈ back, size c < size a ∨ size c = size a ∧ r a c := by
      intro c hc
      have hle : size c ≤ size a := of_decide_eq_true
        (List.rel_of_pairwise_cons (List.pairwise_append.1 hsorted).2.1 hc)
      have hmem : c ∈ xs.mergeSort fun a b => decide (size b ≤ size a) := by
        rw [hsort']
        exact List.mem_append_right front hc
      exact (Nat.lt_or_eq_of_le hle).imp_right fun heq =>
        ⟨heq, hfirst c (List.mem_mergeSort.1 hmem)⟩
    refine List.pairwise_append.2 ⟨hpre, List.pairwise_cons.2 ⟨hback, hpost⟩, ?_⟩
    intro b hb c hc
    rcases List.mem_cons.1 hc with rfl | hc
    · exact Or.inl (hbehind b hb)
    · exact hacross b hb c hc

theorem mergeSort_texts_eq {xs ys : List String} (h : xs.Perm ys) :
    xs.mergeSort (fun a b => decide (a ≤ b)) = ys.mergeSort (fun a b => decide (a ≤ b)) := by
  refine mergeSort_eq_of_perm ?_ ?_ h fun a _ b _ hab hba => ?_
  · intro a b c hab hbc
    exact decide_eq_true (String.le_trans (of_decide_eq_true hab) (of_decide_eq_true hbc))
  · intro a b
    rw [Bool.or_eq_true, decide_eq_true_iff, decide_eq_true_iff]
    exact String.le_total a b
  · exact String.le_antisymm (of_decide_eq_true hab) (of_decide_eq_true hba)

/-! ## the parts of a report -/

variable {s t : RecordSet}

namespace Insight

variable {xs ys : List Record}

theorem languageCount_perm (h : xs.Perm ys) : languageCount xs = languageCount ys := by
  simp only [languageCount, h.any_eq]

theorem onAny_perm (remark : Insight) (test : Record → Bool) (h : xs.Perm ys) :
    onAny remark test xs = onAny remark test ys := by
  simp only [onAny, h.any_eq]

theorem onStyle_perm (settings : InsightSettings) (h : xs.Perm ys) :
    onStyle settings xs = onStyle settings ys := by
  have hfunctions : functionTotal xs = functionTotal ys := totalOf_perm _ h
  have hclasses : classTotal xs = classTotal ys := totalOf_perm _ h
  rw [onStyle, onStyle, hfunctions, hclasses]

end Insight

open Insight in
/-- The remarks are counts, sums and tests of single records. -/
theorem insights_perm (settings : InsightSettings) (h : s.toList.Perm t.toList) :
    insights settings s = insights settings t := by
  simp only [insights, onLanguages, onComponents, onStyling, languageCount_perm h, h.countP_eq,
    onAny_perm _ _ h, onStyle_perm settings h]

theorem perm_languageStats (h : s.toList.Perm t.toList) :
    (languageStats s).Perm (languageStats t) :=
  perm_mergeSort _ (LanguageStats.perm_tallyAll h)

/-- Languages with different numbers of files have fixed places. -/
theorem languageStats_eq_of_perm (h : s.toList.Perm t.toList)
    (hties : ∀ a ∈ s.toList, ∀ b ∈ s.toList,
      s.toList.countP (fun r => r.language == a.language) =
        s.toList.countP (fun r => r.language == b.language) → a.language = b.language) :
    languageStats s = languageStats t := by
  refine mergeSort_descending_eq LanguageStats.count (LanguageStats.perm_tallyAll h) ?_
  intro p hp q hq hcount
  obtain ⟨hp, hpeq⟩ := LanguageStats.mem_tallyAll.1 hp
  obtain ⟨hq, hqeq⟩ := LanguageStats.mem_tallyAll.1 hq
  obtain ⟨a, ha, hap⟩ := List.mem_map.1 hp
  obtain ⟨b, hb, hbq⟩ := List.mem_map.1 hq
  have hlanguage : p.language = q.language := by
    rw [← hap, ← hbq]
    refine hties a ha b hb ?_
    rw [hap, hbq, List.countP_eq_length_filter, List.countP_eq_length_filter]
    rw [hpeq, hqeq] at hcount
    exact hcount
  rw [hpeq, hqeq, hlanguage]

/-- The files of a set with their scores. -/
def scored (settings : ScoringSettings) (records : List Record) : List KeyFile :=
  records.map fun r => ⟨r.path, importance settings r⟩

theorem rank_eq (settings : ScoringSettings) (set : RecordSet) :
    rank settings set =
      (scored settings set.toList).mergeSort fun a b => decide (b.score.toNat ≤ a.score.toNat) := by
  simp only [rank, scored, UInt32.le_iff_toNat_le]

theorem perm_rank (settings : ScoringSettings) (h : s.toList.Perm t.toList) :
    (rank settings s).Perm (rank settings t) :=
  perm_mergeSort _ (h.map _)

/-- Files with different scores have fixed places. -/
theorem rank_eq_of_perm (settings : ScoringSettings) (h : s.toList.Perm t.toList)
    (hties : (s.toList.map (importance settings)).Nodup) :
    rank settings s = rank settings t := by
  rw [rank_eq, rank_eq]
  refine mergeSort_descending_eq (fun k : KeyFile => k.score.toNat) (h.map _) ?_
  intro p hp q hq hscore
  obtain ⟨a, ha, rfl⟩ := List.mem_map.1 hp
  obtain ⟨b, hb, rfl⟩ := List.mem_map.1 hq
  rw [List.inj_on_of_nodup_map hties ha hb (UInt32.toNat_inj.1 hscore)]

/-! ## the report -/

namespace Report

/-- **Order shows only in ties.**  Two sets that hold the same records, in whatever order, have
reports with the same remarks, tree, drawing and totals.  The languages and the ranked files are the
same up to their order, and they stand in the same order if no two languages have equally many files
and no two files the same score. -/
theorem ofRecords_perm (settings : Settings) (h : s.toList.Perm t.toList) :
    (ofRecords settings s).insights = (ofRecords settings t).insights ∧
    (ofRecords settings s).tree = (ofRecords settings t).tree ∧
    (ofRecords settings s).treeView = (ofRecords settings t).treeView ∧
    (ofRecords settings s).totalFunctions = (ofRecords settings t).totalFunctions ∧
    (ofRecords settings s).totalClasses = (ofRecords settings t).totalClasses ∧
    (ofRecords settings s).languageStats.Perm (ofRecords settings t).languageStats ∧
    (rank settings.scoring s).Perm (rank settings.scoring t) ∧
    ((∀ a ∈ s.toList, ∀ b ∈ s.toList,
        s.toList.countP (fun r => r.language == a.language) =
          s.toList.countP (fun r => r.language == b.language) → a.language = b.language) →
      (ofRecords settings s).languageStats = (ofRecords settings t).languageStats) ∧
    ((s.toList.map (importance settings.scoring)).Nodup →
      rank settings.scoring s = rank settings.scoring t ∧
        (ofRecords settings s).keyFiles = (ofRecords settings t).keyFiles) := by
  have hpaths := mergeSort_texts_eq (h.map Record.path)
  have htree : (ofRecords settings s).tree = (ofRecords settings t).tree := by
    simp only [ofRecords, hpaths]
  have hstats : (ofRecords settings s).languageStats.Perm (ofRecords settings t).languageStats :=
    perm_languageStats h
  refine ⟨?_, htree, ?_, totalOf_perm _ hstats, totalOf_perm _ hstats, hstats,
    perm_rank settings.scoring h, fun hties => languageStats_eq_of_perm h hties, fun hties => ?_⟩
  · simp only [ofRecords, insights_perm settings.insights h]
  · exact congrArg DirectoryTree.render htree
  · have hrank := rank_eq_of_perm settings.scoring h hties
    exact ⟨hrank, congrArg (List.take settings.scoring.keyFileLimit) hrank⟩

/-- A Go file and two Python files in two orders. Their scores and the numbers of files differ, so
that nothing depends on the order. -/
theorem ofRecords_perm_three :
    let file (path : String) (language : Language) (lines : Nat) : Record :=
      .parsed path language .patterns [] (.ofSize lines 0)
    let go := file "util.go" .go 100
    let main := file "main.py" .python 1
    let other := file "other.py" .python 1
    let s := RecordSet.ofList [go, main, other]
    let t := RecordSet.ofList [other, go, main]
    s.toList.Perm t.toList ∧ (s.toList.map (importance .standard)).Nodup ∧
      (ofRecords .standard s).tree = (ofRecords .standard t).tree ∧
      (ofRecords .standard s).languageStats = (ofRecords .standard t).languageStats ∧
      (ofRecords .standard s).keyFiles = (ofRecords .standard t).keyFiles := by
  intro file go main other s t
  have hs : s.toList = [go, main, other] := RecordSet.toList_ofList_of_nodup (by decide)
  have ht : t.toList = [other, go, main] := RecordSet.toList_ofList_of_nodup (by decide)
  have hperm : s.toList.Perm t.toList := by
    rw [hs, ht]
    exact (List.perm_append_comm : ([go, main] ++ [other]).Perm ([other] ++ [go, main]))
  have hscores : (s.toList.map (importance .standard)).Nodup := by
    rw [hs]
    decide
  have hcounts : ∀ a ∈ s.toList, ∀ b ∈ s.toList,
      s.toList.countP (fun r => r.language == a.language) =
        s.toList.countP (fun r => r.language == b.language) → a.language = b.language := by
    rw [hs]
    simp [go, main, other, file, Record.parsed]
  obtain ⟨-, htree, -, -, -, -, -, hstats, hrank⟩ := ofRecords_perm .standard hperm
  exact ⟨hperm, hscores, htree, hstats hcounts, (hrank hscores).2⟩

end Report

end SourceAtlas
