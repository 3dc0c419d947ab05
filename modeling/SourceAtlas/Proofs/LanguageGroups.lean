import SourceAtlas.Proofs.ReportOrder

/-!
Totals and groups by language agree.

* `LanguageStats.pairwise_idxOf_tallyAll`: languages are counted in the order in which they appear.
* `LanguageStats.Precedes`: more files come first and, of equally many, the earlier language.
* `Report.Grouped`: what groups hold after some records were entered. `Report.Grouped.enter` is one
  more record, `Report.grouped_groupAll` a whole run of them.
* `LanguageStats.totalOf_languageStats`: what is summed by language is summed over all records.
* `Report.language_stats_match_groups`: each language that occurs has one group and one total, and
  the total is that of the group.
-/

namespace SourceAtlas

/-! ## the order of languages -/

namespace LanguageStats

/-- A language precedes another one by the number of its files or, where these are equally many, by
its first place among the languages of all files. -/
def Precedes (languages : List Language) (s t : LanguageStats) : Prop :=
  t.count < s.count ∨
    t.count = s.count ∧ languages.idxOf s.language < languages.idxOf t.language

theorem mem_map_language_tallyAll {records : List Record} {l : Language} :
    l ∈ (tallyAll records).map language ↔ l ∈ records.map Record.language := by
  constructor
  · intro h
    obtain ⟨s, hs, rfl⟩ := List.mem_map.1 h
    exact (mem_tallyAll.1 hs).1
  · intro h
    exact List.mem_map.2 ⟨ofLanguage records l, mem_tallyAll.2 ⟨h, rfl⟩, rfl⟩

/-- A language that is new is counted behind all others. -/
theorem pairwise_idxOf_tallyAll (records : List Record) :
    ((tallyAll records).map language).Pairwise fun l m =>
      (records.map Record.language).idxOf l < (records.map Record.language).idxOf m := by
  induction records using List.reverseRecOn with
  | nil => exact List.Pairwise.nil
  | append_singleton records r ih =>
    have hold : ∀ l ∈ (tallyAll records).map language,
        ((records ++ [r]).map Record.language).idxOf l = (records.map Record.language).idxOf l := by
      intro l hl
      rw [List.map_append, List.idxOf_append_of_mem (mem_map_language_tallyAll.1 hl)]
    have hkept : ((tallyAll records).map language).Pairwise fun l m =>
        ((records ++ [r]).map Record.language).idxOf l <
          ((records ++ [r]).map Record.language).idxOf m := by
      refine ih.imp_of_mem fun {l m} hl hm hlt => ?_
      rw [hold l hl, hold m hm]
      exact hlt
    rw [tallyAll_concat, map_language_tally]
    split
    · exact hkept
    · rename_i hnew
      refine List.pairwise_append.2 ⟨hkept, List.pairwise_singleton _ _, ?_⟩
      intro l hl m hm
      rw [List.mem_singleton.1 hm, hold l hl, List.map_append, List.idxOf_append_of_notMem
        (fun h => hnew (mem_map_language_tallyAll.2 h))]
      have hlt := List.idxOf_lt_length_iff.2 (mem_map_language_tallyAll.1 hl)
      omega

end LanguageStats

theorem pairwise_languageStats (set : RecordSet) :
    (languageStats set).Pairwise (LanguageStats.Precedes (set.toList.map Record.language)) := by
  have hplaces := List.pairwise_map.1 (LanguageStats.pairwise_idxOf_tallyAll set.toList)
  exact pairwise_mergeSort_descending LanguageStats.count hplaces

/-! ## groups -/

theorem Language.mem_all (l : Language) : l ∈ all := by
  cases l <;> decide

theorem Language.position_inj {l m : Language} (h : l.position = m.position) : l = m :=
  (List.idxOf_inj l.mem_all).1 h

namespace Report

/-- What the groups hold after some records were entered: for each language that occurs its records,
in their order, and the languages themselves in their order. -/
structure Grouped (groups : List (Language × Array Record)) (records : List Record) : Prop where
  increasing : groups.Pairwise fun a b => a.1.position < b.1.position
  mem_iff : ∀ language group, (language, group) ∈ groups ↔
    language ∈ records.map Record.language ∧
      group.toList = records.filter fun r => r.language == language

theorem mem_enterGroup {record : Record} {groups : List (Language × Array Record)}
    (h : groups.Pairwise fun a b => a.1.position < b.1.position) {language : Language}
    {group : Array Record} :
    (language, group) ∈ enterGroup record groups ↔
      language ≠ record.language ∧ (language, group) ∈ groups ∨
      language = record.language ∧
        ((∃ old, (language, old) ∈ groups ∧ group = old.push record) ∨
          language ∉ groups.map Prod.fst ∧ group = #[record]) := by
  induction groups with
  | nil => simp [enterGroup]
  | cons first rest ih =>
    obtain ⟨m, old⟩ := first
    obtain ⟨hfirst, hrest⟩ := List.pairwise_cons.1 h
    have hm : ∀ g, (m, g) ∉ rest := by
      intro g hg
      exact Nat.lt_irrefl _ (hfirst (m, g) hg)
    unfold enterGroup
    split
    · grind
    · split
      · rename_i hother hbefore
        have hnone : ∀ g, (record.language, g) ∉ rest := by
          intro g hg
          have hafter : m.position < record.language.position := hfirst (record.language, g) hg
          omega
        grind
      · have hstep := ih hrest
        grind

/-- The groups stay in the order of their languages. -/
theorem increasing_enterGroup (record : Record) {groups : List (Language × Array Record)}
    (h : groups.Pairwise fun a b => a.1.position < b.1.position) :
    (enterGroup record groups).Pairwise fun a b => a.1.position < b.1.position := by
  induction groups with
  | nil => exact List.pairwise_singleton _ _
  | cons first rest ih =>
    obtain ⟨m, old⟩ := first
    obtain ⟨hfirst, hrest⟩ := List.pairwise_cons.1 h
    unfold enterGroup
    split
    · exact List.pairwise_cons.2 ⟨hfirst, hrest⟩
    · rename_i hother
      split
      · rename_i hbefore
        refine List.pairwise_cons.2 ⟨fun b hb => ?_, h⟩
        rcases List.mem_cons.1 hb with rfl | hb
        · exact hbefore
        · exact Nat.lt_trans hbefore (hfirst b hb)
      · rename_i hnot
        refine List.pairwise_cons.2 ⟨fun b hb => ?_, ih hrest⟩
        obtain ⟨language, group⟩ := b
        rcases (mem_enterGroup hrest).1 hb with ⟨-, hmem⟩ | ⟨rfl, -⟩
        · exact hfirst _ hmem
        · have hne : m.position ≠ record.language.position := fun e =>
            hother (Language.position_inj e.symm)
          show m.position < record.language.position
          omega

/-- Entering a record adds it and nothing else. -/
theorem perm_enterGroup (record : Record) (groups : List (Language × Array Record)) :
    ((enterGroup record groups).flatMap fun group => group.2.toList).Perm
      (record :: groups.flatMap fun group => group.2.toList) := by
  induction groups with
  | nil => simp [enterGroup]
  | cons first rest ih =>
    obtain ⟨m, old⟩ := first
    unfold enterGroup
    split
    · rw [List.flatMap_cons, List.flatMap_cons, Array.toList_push, List.append_assoc]
      exact List.perm_middle
    · split
      · rfl
      · rw [List.flatMap_cons, List.flatMap_cons]
        exact (ih.append_left old.toList).trans List.perm_middle

theorem grouped_nil : Grouped [] [] := ⟨List.Pairwise.nil, by simp⟩

namespace Grouped

variable {groups : List (Language × Array Record)} {records : List Record}

theorem mem_map_fst (h : Grouped groups records) {language : Language} :
    language ∈ groups.map Prod.fst ↔ language ∈ records.map Record.language := by
  constructor
  · intro hmem
    obtain ⟨⟨l, group⟩, hgroup, rfl⟩ := List.mem_map.1 hmem
    exact ((h.mem_iff l group).1 hgroup).1
  · intro hmem
    exact List.mem_map.2 ⟨(language, (records.filter fun r => r.language == language).toArray),
      (h.mem_iff language _).2 ⟨hmem, rfl⟩, rfl⟩

theorem nodup_map_fst (h : Grouped groups records) : (groups.map Prod.fst).Nodup := by
  refine List.pairwise_map.2 (h.increasing.imp fun {a b} hlt heq => ?_)
  rw [heq] at hlt
  exact Nat.lt_irrefl _ hlt

/-- One more record. -/
theorem enter (h : Grouped groups records) (record : Record) :
    Grouped (enterGroup record groups) (records ++ [record]) := by
  refine ⟨increasing_enterGroup record h.increasing, fun language group => ?_⟩
  rw [mem_enterGroup h.increasing, List.map_append, List.filter_append, List.mem_append]
  by_cases hlanguage : language = record.language
  · subst hlanguage
    have hlast : [record].filter (fun r => r.language == record.language) = [record] := by simp
    rw [hlast]
    constructor
    · rintro (⟨hne, -⟩ | ⟨-, ⟨old, hold, rfl⟩ | ⟨hnew, rfl⟩⟩)
      · exact absurd rfl hne
      · exact ⟨Or.inr (by simp), by rw [Array.toList_push, ((h.mem_iff _ _).1 hold).2]⟩
      · rw [h.mem_map_fst] at hnew
        exact ⟨Or.inr (by simp), by rw [filter_language_eq_nil hnew]; rfl⟩
    · rintro ⟨-, hgroup⟩
      refine Or.inr ⟨rfl, ?_⟩
      by_cases hmem : record.language ∈ records.map Record.language
      · refine Or.inl ⟨_, (h.mem_iff record.language (List.toArray _)).2 ⟨hmem, rfl⟩, ?_⟩
        rw [← Array.toList_inj, Array.toList_push, hgroup]
      · refine Or.inr ⟨fun hkey => hmem (h.mem_map_fst.1 hkey), ?_⟩
        rw [← Array.toList_inj, hgroup, filter_language_eq_nil hmem]
        rfl
  · have hother : record.language ≠ language := Ne.symm hlanguage
    simp [hlanguage, hother, h.mem_iff]

end Grouped

/-- All records one after the other, as the report enters them. -/
def groupAll (records : List Record) : List (Language × Array Record) :=
  records.foldl (fun groups record => enterGroup record groups) []

theorem groupAll_concat (records : List Record) (record : Record) :
    groupAll (records ++ [record]) = enterGroup record (groupAll records) := by
  simp [groupAll]

/-- A whole run of records. -/
theorem grouped_groupAll (records : List Record) : Grouped (groupAll records) records := by
  induction records using List.reverseRecOn with
  | nil => exact grouped_nil
  | append_singleton records record ih =>
    rw [groupAll_concat]
    exact ih.enter record

/-- The groups share out the records among them. -/
theorem perm_groupAll (records : List Record) :
    ((groupAll records).flatMap fun group => group.2.toList).Perm records := by
  induction records using List.reverseRecOn with
  | nil => rfl
  | append_singleton records record ih =>
    rw [groupAll_concat]
    exact (perm_enterGroup record _).trans ((ih.cons record).trans
      (List.perm_append_singleton record records).symm)

theorem filesByLanguage_eq (report : Report) :
    report.filesByLanguage =
      (groupAll report.files.toList).map fun group => (group.1, group.2.toList) :=
  rfl

theorem mem_filesByLanguage {report : Report} {language : Language} {group : List Record} :
    (language, group) ∈ report.filesByLanguage ↔
      language ∈ report.files.toList.map Record.language ∧
        group = report.files.toList.filter fun r => r.language == language := by
  have hgrouped := grouped_groupAll report.files.toList
  rw [filesByLanguage_eq, List.mem_map]
  constructor
  · rintro ⟨⟨l, g⟩, hmem, heq⟩
    cases heq
    exact (hgrouped.mem_iff l g).1 hmem
  · rintro ⟨hmem, hgroup⟩
    exact ⟨(language, group.toArray), (hgrouped.mem_iff language _).2 ⟨hmem, hgroup⟩, rfl⟩

theorem nodup_fst_filesByLanguage (report : Report) :
    (report.filesByLanguage.map Prod.fst).Nodup := by
  rw [filesByLanguage_eq, List.map_map]
  exact (grouped_groupAll report.files.toList).nodup_map_fst

theorem perm_filesByLanguage (report : Report) :
    (report.filesByLanguage.flatMap Prod.snd).Perm report.files.toList := by
  rw [filesByLanguage_eq, List.flatMap_map]
  exact perm_groupAll report.files.toList

end Report

/-! ## totals -/

theorem totalOf_map {α β : Type} (f : β → Nat) (g : α → β) (xs : List α) :
    totalOf f (xs.map g) = totalOf (fun x => f (g x)) xs := by
  induction xs with
  | nil => rfl
  | cons x xs ih => rw [List.map_cons, totalOf, totalOf, ih]

theorem totalOf_congr {α : Type} {f g : α → Nat} {xs : List α} (h : ∀ x ∈ xs, f x = g x) :
    totalOf f xs = totalOf g xs := by
  induction xs with
  | nil => rfl
  | cons x xs ih =>
    rw [totalOf, totalOf, h x List.mem_cons_self, ih fun y hy => h y (List.mem_cons_of_mem x hy)]

theorem totalOf_flatMap {α β : Type} (f : β → Nat) (g : α → List β) (xs : List α) :
    totalOf f (xs.flatMap g) = totalOf (fun x => totalOf f (g x)) xs := by
  induction xs with
  | nil => rfl
  | cons x xs ih => rw [List.flatMap_cons, totalOf_append, totalOf, ih]

theorem totalOf_one {α : Type} (xs : List α) : totalOf (fun _ => 1) xs = xs.length := by
  induction xs with
  | nil => rfl
  | cons x xs ih =>
    rw [totalOf, ih, List.length_cons]
    omega

namespace LanguageStats

theorem mem_languageStats {files : RecordSet} {s : LanguageStats} :
    s ∈ languageStats files ↔
      s.language ∈ files.toList.map Record.language ∧ s = ofLanguage files.toList s.language := by
  rw [← mem_tallyAll]
  exact (List.mergeSort_perm _ _).mem_iff

theorem nodup_language_languageStats (files : RecordSet) :
    ((languageStats files).map language).Nodup :=
  ((List.mergeSort_perm _ _).map language).nodup_iff.2 (nodup_language_tallyAll files.toList)

/-- The totals are those of the groups, up to their order. -/
theorem perm_languageStats_groups (files : RecordSet) :
    (languageStats files).Perm
      ((Report.groupAll files.toList).map fun group => ofLanguage files.toList group.1) := by
  have hgrouped := Report.grouped_groupAll files.toList
  have hnodup : (((Report.groupAll files.toList).map fun group =>
      ofLanguage files.toList group.1).map language).Nodup := by
    rw [List.map_map]
    exact hgrouped.nodup_map_fst
  rw [List.perm_ext_iff_of_nodup (nodup_language_languageStats files).of_map hnodup.of_map]
  intro s
  rw [mem_languageStats, ← hgrouped.mem_map_fst, List.mem_map, List.mem_map]
  constructor
  · rintro ⟨⟨group, hgroup, hlanguage⟩, heq⟩
    exact ⟨group, hgroup, by rw [hlanguage, ← heq]⟩
  · rintro ⟨group, hgroup, rfl⟩
    exact ⟨⟨group, hgroup, rfl⟩, rfl⟩

/-- What the totals say of each language by `g`, and `f` of each record, has the same sum. -/
theorem totalOf_languageStats (files : RecordSet) {f : Record → Nat} {g : LanguageStats → Nat}
    (h : ∀ l, g (ofLanguage files.toList l) =
      totalOf f (files.toList.filter fun r => r.language == l)) :
    totalOf g (languageStats files) = totalOf f files.toList := by
  have hgrouped := Report.grouped_groupAll files.toList
  have hgroup : ∀ group ∈ Report.groupAll files.toList,
      g (ofLanguage files.toList group.1) = totalOf f group.2.toList := by
    intro group hmem
    rw [h, ((hgrouped.mem_iff group.1 group.2).1 hmem).2]
  calc totalOf g (languageStats files)
    _ = totalOf (fun group => g (ofLanguage files.toList group.1))
          (Report.groupAll files.toList) := by
        rw [totalOf_perm g (perm_languageStats_groups files), totalOf_map]
    _ = totalOf (fun group => totalOf f group.2.toList) (Report.groupAll files.toList) :=
        totalOf_congr hgroup
    _ = totalOf f ((Report.groupAll files.toList).flatMap fun group => group.2.toList) :=
        (totalOf_flatMap f _ _).symm
    _ = totalOf f files.toList := totalOf_perm f (Report.perm_groupAll files.toList)

end LanguageStats

/-! ## the report -/

/-- **Totals and groups agree.**  In the report on a set of records, each language that occurs has
one total and one group.  The totals with more files come first, and of equally many the language
that appears first.  A group holds the records of its language in the order of the set, and all
groups together hold all records.  A total counts the files, functions and classes of its group, so
that the totals together count those of all records. -/
theorem Report.language_stats_match_groups (settings : Settings) (files : RecordSet) :
    let report := ofRecords settings files
    let languages := files.toList.map Record.language
    let functions := fun r : Record => r.metadata.functionNames.size
    let classes := fun r : Record => r.metadata.classNames.size
    (report.languageStats.map LanguageStats.language).Nodup ∧
      (∀ l, l ∈ report.languageStats.map LanguageStats.language ↔ l ∈ languages) ∧
      report.languageStats.Pairwise (LanguageStats.Precedes languages) ∧
      (∀ s ∈ report.languageStats, ∃ group, (s.language, group) ∈ report.filesByLanguage ∧
        s.count = group.length ∧ s.functionTotal = totalOf functions group ∧
        s.classTotal = totalOf classes group) ∧
      (report.filesByLanguage.map Prod.fst).Nodup ∧
      (∀ l group, (l, group) ∈ report.filesByLanguage ↔
        l ∈ languages ∧ group = files.toList.filter fun r => r.language == l) ∧
      (report.filesByLanguage.flatMap Prod.snd).Perm files.toList ∧
      totalOf LanguageStats.count report.languageStats = files.size ∧
      report.totalFunctions = totalOf functions files.toList ∧
      report.totalClasses = totalOf classes files.toList := by
  intro report languages functions classes
  refine ⟨LanguageStats.nodup_language_languageStats files, fun l => ?_,
    pairwise_languageStats files, fun s hs => ?_, nodup_fst_filesByLanguage report,
    fun l group => mem_filesByLanguage, perm_filesByLanguage report, ?_,
    LanguageStats.totalOf_languageStats files fun l => rfl,
    LanguageStats.totalOf_languageStats files fun l => rfl⟩
  · rw [← LanguageStats.mem_map_language_tallyAll]
    exact ((List.mergeSort_perm _ _).map LanguageStats.language).mem_iff
  · obtain ⟨hlanguage, heq⟩ := LanguageStats.mem_languageStats.1 hs
    refine ⟨_, mem_filesByLanguage.2 ⟨hlanguage, rfl⟩, ?_⟩
    exact ⟨congrArg LanguageStats.count heq, congrArg LanguageStats.functionTotal heq,
      congrArg LanguageStats.classTotal heq⟩
  · have hcount := LanguageStats.totalOf_languageStats files
      (f := fun _ => 1) (g := LanguageStats.count) fun l => (totalOf_one _).symm
    rw [totalOf_one] at hcount
    exact hcount

end SourceAtlas
