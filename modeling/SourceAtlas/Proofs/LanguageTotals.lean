import Mathlib.Data.List.Induction
import Mathlib.Data.List.Nodup
import SourceAtlas.Report.Stats

/-!
The totals by language before they are sorted.

* `LanguageStats.find?_tally`: a record changes the totals of its own language only.
* `LanguageStats.mem_tallyAll`: the totals of all records are, for each language that occurs, those
  of the records in that language.
* `LanguageStats.perm_tallyAll`: they do not depend on the order of the records.
-/

namespace SourceAtlas

/-! ## sums -/

theorem totalOf_append {α : Type} (f : α → Nat) (xs ys : List α) :
    totalOf f (xs ++ ys) = totalOf f xs + totalOf f ys := by
  induction xs with
  | nil => simp [totalOf]
  | cons x xs ih => simp [totalOf, ih, Nat.add_assoc]

theorem totalOf_perm {α : Type} (f : α → Nat) {xs ys : List α} (h : xs.Perm ys) :
    totalOf f xs = totalOf f ys := by
  induction h with
  | nil => rfl
  | cons x _ ih => rw [totalOf, totalOf, ih]
  | swap x y xs =>
    simp only [totalOf]
    omega
  | trans _ _ ih₁ ih₂ => exact ih₁.trans ih₂

/-! ## one language -/

theorem filter_language_eq_nil {records : List Record} {l : Language}
    (h : l ∉ records.map Record.language) : (records.filter fun r => r.language == l) = [] := by
  rw [List.filter_eq_nil_iff]
  intro r hr heq
  exact h (List.mem_map.2 ⟨r, hr, by simpa using heq⟩)

namespace LanguageStats

/-- The totals of the files in a language. -/
def ofLanguage (records : List Record) (language : Language) : LanguageStats :=
  let group := records.filter fun r => r.language == language
  { language
    count := group.length
    functionTotal := totalOf (fun r => r.metadata.functionNames.size) group
    classTotal := totalOf (fun r => r.metadata.classNames.size) group }

theorem ofLanguage_concat (records : List Record) (r : Record) (language : Language) :
    ofLanguage (records ++ [r]) language =
      if r.language = language then (ofLanguage records language).add r
      else ofLanguage records language := by
  by_cases h : r.language = language
  · simp [ofLanguage, add, h, List.filter_append, totalOf_append, totalOf]
  · simp [ofLanguage, h, List.filter_append]

theorem ofLanguage_perm {xs ys : List Record} (h : xs.Perm ys) (language : Language) :
    ofLanguage xs language = ofLanguage ys language := by
  have hgroup := h.filter fun r => r.language == language
  simp only [ofLanguage]
  rw [hgroup.length_eq, totalOf_perm _ hgroup, totalOf_perm _ hgroup]

/-! ## all languages -/

/-- The totals of all languages, in the order in which they appear. -/
def tallyAll (records : List Record) : List LanguageStats :=
  records.foldl (fun stats r => tally r stats) []

theorem tallyAll_concat (records : List Record) (r : Record) :
    tallyAll (records ++ [r]) = tally r (tallyAll records) := by
  simp [tallyAll]

/-- A record is counted in its own language. -/
theorem find?_tally (r : Record) (stats : List LanguageStats) (language : Language) :
    (tally r stats).find? (fun s => s.language == language) =
      if r.language = language then
        some (((stats.find? fun s => s.language == language).getD (zero language)).add r)
      else stats.find? fun s => s.language == language := by
  induction stats with
  | nil => by_cases h : r.language = language <;> simp [tally, add, zero, h]
  | cons s stats ih =>
    unfold tally
    by_cases hs : s.language = r.language
    · rw [if_pos hs]
      by_cases h : r.language = language
      · simp [add, hs, h]
      · simp [add, hs, h]
    · rw [if_neg hs, List.find?_cons, List.find?_cons]
      by_cases hl : s.language = language
      · have hr : r.language ≠ language := fun h => hs (hl.trans h.symm)
        simp [hl, hr]
      · have hl' : (s.language == language) = false := by simpa using hl
        rw [hl', ih]

/-- A language that was there keeps its place, and a new one comes last. -/
theorem map_language_tally (r : Record) (stats : List LanguageStats) :
    (tally r stats).map language =
      if r.language ∈ stats.map language then stats.map language
      else stats.map language ++ [r.language] := by
  induction stats with
  | nil => simp [tally, add, zero]
  | cons s stats ih =>
    unfold tally
    by_cases hs : s.language = r.language
    · simp [add, hs]
    · have hs' : r.language ≠ s.language := Ne.symm hs
      rw [if_neg hs, List.map_cons, ih]
      by_cases hmem : r.language ∈ stats.map language
      · simp [hmem]
      · simp [hmem, hs']

theorem nodup_language_tallyAll (records : List Record) :
    ((tallyAll records).map language).Nodup := by
  induction records using List.reverseRecOn with
  | nil => simp [tallyAll]
  | append_singleton records r ih =>
    rw [tallyAll_concat, map_language_tally]
    split
    · exact ih
    · rename_i hnew
      exact List.nodup_append.2 ⟨ih, List.nodup_singleton _, by
        rintro a ha b hb rfl
        exact hnew (List.mem_singleton.1 hb ▸ ha)⟩

theorem find?_tallyAll (records : List Record) (language : Language) :
    (tallyAll records).find? (fun s => s.language == language) =
      if language ∈ records.map Record.language then some (ofLanguage records language)
      else none := by
  induction records using List.reverseRecOn with
  | nil => simp [tallyAll]
  | append_singleton records r ih =>
    rw [tallyAll_concat, find?_tally, ih, ofLanguage_concat]
    by_cases hr : r.language = language
    · by_cases hmem : language ∈ records.map Record.language
      · simp [hr, hmem]
      · -- the first file of its language
        have hnone : ofLanguage records language = zero language := by
          simp [ofLanguage, filter_language_eq_nil hmem, totalOf, zero]
        simp [hr, hmem, hnone]
    · have hr' : language ≠ r.language := Ne.symm hr
      simp [hr, hr']

/-- The totals are those of the languages that occur, each counted over its own files. -/
theorem mem_tallyAll {records : List Record} {s : LanguageStats} :
    s ∈ tallyAll records ↔
      s.language ∈ records.map Record.language ∧ s = ofLanguage records s.language := by
  have hfind := find?_tallyAll records s.language
  constructor
  · intro hs
    have hsome : (tallyAll records).find? (fun q => q.language == s.language) = some s := by
      rw [List.find?_eq_some_iff_append]
      obtain ⟨before, after, heq⟩ := List.append_of_mem hs
      refine ⟨by simp, before, after, heq, fun q hq => ?_⟩
      have hnodup := nodup_language_tallyAll records
      rw [heq, List.map_append, List.nodup_append] at hnodup
      have hne := hnodup.2.2 q.language (List.mem_map_of_mem hq) s.language (by simp)
      simpa using hne
    rw [hsome] at hfind
    split at hfind
    · rename_i hmem
      exact ⟨hmem, Option.some.inj hfind⟩
    · cases hfind
  · rintro ⟨hmem, heq⟩
    rw [if_pos hmem, ← heq] at hfind
    exact List.mem_of_find?_eq_some hfind

/-- Each language has the same totals, whatever the order of the records. -/
theorem perm_tallyAll {xs ys : List Record} (h : xs.Perm ys) :
    (tallyAll xs).Perm (tallyAll ys) := by
  rw [List.perm_ext_iff_of_nodup (nodup_language_tallyAll xs).of_map
    (nodup_language_tallyAll ys).of_map]
  intro s
  rw [mem_tallyAll, mem_tallyAll, ofLanguage_perm h, (h.map Record.language).mem_iff]

end LanguageStats

end SourceAtlas
