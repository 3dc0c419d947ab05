import SourceAtlas.Proofs.ReportOrder

/-!
Scores of files and the files with the highest ones.

* `Score.StandsFor`: a score and the number that it would be if it were not cut.
* `importance_saturates_once`: the score of a file is a sum of numbers that is cut once, at its end.
* `KeyFile.Outranks`: the higher score comes first and, of equal ones, the earlier record.
* `pairwise_rank`, `outranks_of_mem_keyFiles`: all files are ranked in this order, and those that
  are left out of the key files come after those that are kept.
* `Report.key_files_lead_ranking`: the key files are the first of the ranked files, and each of them
  has its record.
-/

namespace SourceAtlas

/-! ## scores -/

namespace Score

theorem toNat_ofNat (n : Nat) : (ofNat n).toNat = min n largest := by
  have hsize : min n largest < UInt32.size := by
    unfold largest UInt32.size
    omega
  rw [ofNat, UInt32.toNat_ofNat_of_lt' hsize]

theorem toNat_le_largest (score : UInt32) : score.toNat ≤ largest := by
  have hlt := score.toNat_lt
  unfold largest UInt32.size
  omega

/-- The score stands for a number, which is cut if it is too large. -/
def StandsFor (score : UInt32) (n : Nat) : Prop := score.toNat = min n largest

theorem standsFor_self (score : UInt32) : StandsFor score score.toNat :=
  (Nat.min_eq_left (toNat_le_largest score)).symm

theorem standsFor_bonus (test : Bool) (bonus : UInt32) :
    StandsFor (if test then bonus else 0) (if test then bonus.toNat else 0) := by
  cases test with
  | false => exact standsFor_self 0
  | true => exact standsFor_self bonus

/-- It does not matter that the count is cut before it is multiplied. -/
theorem standsFor_times (count : Nat) (weight : UInt32) :
    StandsFor (times count weight) (count * weight.toNat) := by
  unfold StandsFor
  rw [times, toNat_ofNat, toNat_ofNat]
  by_cases hcount : count ≤ largest
  · rw [Nat.min_eq_left hcount]
  · have hfull : min count largest = largest := Nat.min_eq_right (by omega)
    rw [hfull]
    rcases Nat.eq_zero_or_pos weight.toNat with hzero | hpos
    · simp [hzero]
    · have hcut : largest ≤ largest * weight.toNat := Nat.le_mul_of_pos_right largest hpos
      have hmore : largest * weight.toNat ≤ count * weight.toNat :=
        Nat.mul_le_mul_right weight.toNat (by omega)
      omega

namespace StandsFor

variable {a b : UInt32} {m n : Nat}

/-- What is cut once stays cut, whatever is added. -/
theorem add (ha : StandsFor a m) (hb : StandsFor b n) : StandsFor (Score.add a b) (m + n) := by
  unfold StandsFor at ha hb ⊢
  rw [Score.add, toNat_ofNat]
  omega

/-- A cap is a score, so it is never above the cut. -/
theorem min_cap (ha : StandsFor a m) (cap : UInt32) : StandsFor (min a cap) (min m cap.toNat) := by
  have hcap := toNat_le_largest cap
  unfold StandsFor at ha ⊢
  rw [UInt32.toNat_min]
  omega

end StandsFor

end Score

/-- **One cut is enough.**  The score of a file is the sum of its bonuses and of what its functions,
classes and imports count, the imports only up to their cap, all computed without any bound and cut
at the largest score in the end. -/
theorem importance_saturates_once (settings : ScoringSettings) (r : Record) :
    (importance settings r).toNat =
      min (UInt32.size - 1)
        ((if isEntryPoint settings r then settings.entryBonus.toNat else 0) +
          (if isInWindow settings r then settings.sizeBonus.toNat else 0) +
          r.metadata.functionNames.size * settings.functionWeight.toNat +
          r.metadata.classNames.size * settings.classWeight.toNat +
          min (r.metadata.importNames.size * settings.importWeight.toNat)
            settings.importCap.toNat) := by
  have hentry := Score.standsFor_bonus (isEntryPoint settings r) settings.entryBonus
  have hsize := Score.standsFor_bonus (isInWindow settings r) settings.sizeBonus
  have hfunctions := Score.standsFor_times r.metadata.functionNames.size settings.functionWeight
  have hclasses := Score.standsFor_times r.metadata.classNames.size settings.classWeight
  have himports := (Score.standsFor_times r.metadata.importNames.size settings.importWeight).min_cap
    settings.importCap
  rw [Nat.min_comm]
  exact (((hentry.add hsize).add hfunctions).add hclasses).add himports

/-- Two bonuses that are too much together. -/
example :
    importance { ScoringSettings.standard with entryBonus := 4294967295, sizeBonus := 4294967295 }
      (.parsed "main.go" .go .patterns [] (.ofSize 100 0)) = 4294967295 := by
  decide

/-! ## the order of files -/

/-- A file outranks another one by its score or, where the scores are equal, by its place among all
paths. -/
def KeyFile.Outranks (paths : List String) (a b : KeyFile) : Prop :=
  b.score < a.score ∨ b.score = a.score ∧ paths.idxOf a.path < paths.idxOf b.path

theorem pairwise_idxOf_of_nodup {paths : List String} (h : paths.Nodup) :
    paths.Pairwise fun a b => paths.idxOf a < paths.idxOf b := by
  rw [List.pairwise_iff_getElem]
  intro i j hi hj hlt
  rwa [h.idxOf_getElem i hi, h.idxOf_getElem j hj]

theorem map_path_scored (settings : ScoringSettings) (records : List Record) :
    (scored settings records).map KeyFile.path = records.map Record.path := by
  simp [scored]

/-- Ranked files follow each other by score and place. -/
theorem pairwise_rank (settings : ScoringSettings) {set : RecordSet}
    (hnodup : (set.toList.map Record.path).Nodup) :
    (rank settings set).Pairwise (KeyFile.Outranks (set.toList.map Record.path)) := by
  have hplaces : ((scored settings set.toList).map KeyFile.path).Pairwise fun p q =>
      (set.toList.map Record.path).idxOf p < (set.toList.map Record.path).idxOf q := by
    rw [map_path_scored]
    exact pairwise_idxOf_of_nodup hnodup
  rw [List.pairwise_map] at hplaces
  rw [rank_eq]
  refine (pairwise_mergeSort_descending (fun k : KeyFile => k.score.toNat) hplaces).imp ?_
  intro a b hab
  unfold KeyFile.Outranks
  rw [UInt32.lt_iff_toNat_lt, ← UInt32.toNat_inj]
  exact hab

theorem perm_rank_scored (settings : ScoringSettings) (set : RecordSet) :
    (rank settings set).Perm (scored settings set.toList) :=
  List.mergeSort_perm _ _

theorem mem_scored_of_mem_keyFiles {settings : ScoringSettings} {set : RecordSet} {k : KeyFile}
    (h : k ∈ keyFiles settings set) : k ∈ scored settings set.toList :=
  (perm_rank_scored settings set).mem_iff.1 (List.mem_of_mem_take h)

theorem length_keyFiles (settings : ScoringSettings) (set : RecordSet) :
    (keyFiles settings set).length = min settings.keyFileLimit set.size := by
  rw [keyFiles, List.length_take, (perm_rank_scored settings set).length_eq, scored,
    List.length_map]
  rfl

/-- What is left out comes after what is kept. -/
theorem outranks_of_mem_keyFiles {settings : ScoringSettings} {set : RecordSet}
    (hnodup : (set.toList.map Record.path).Nodup) {kept : KeyFile} {r : Record}
    (hkept : kept ∈ keyFiles settings set) (hr : r ∈ set.toList)
    (hleft : r.path ∉ (keyFiles settings set).map KeyFile.path) :
    kept.Outranks (set.toList.map Record.path) ⟨r.path, importance settings r⟩ := by
  have hranked : (⟨r.path, importance settings r⟩ : KeyFile) ∈ rank settings set := by
    rw [(perm_rank_scored settings set).mem_iff]
    exact List.mem_map_of_mem hr
  rw [← List.take_append_drop settings.keyFileLimit (rank settings set)] at hranked
  rcases List.mem_append.1 hranked with hmem | hmem
  · exact absurd (List.mem_map_of_mem hmem) hleft
  · exact (pairwise_rank settings hnodup).rel_of_mem_take_of_mem_drop hkept hmem

/-! ## the records of key files -/

/-- Each key file is found with the record that it was scored by. -/
theorem exists_find?_of_mem_keyFiles {settings : ScoringSettings} {set : RecordSet}
    {pushed : List Record} (h : set.Holds pushed) {k : KeyFile} (hk : k ∈ keyFiles settings set) :
    ∃ r ∈ set.toList, set.find? k.path = some r ∧ r.path = k.path ∧
      importance settings r = k.score := by
  obtain ⟨r, hr, rfl⟩ := List.mem_map.1 (mem_scored_of_mem_keyFiles hk)
  exact ⟨r, hr, h.find?_of_mem hr, rfl, rfl⟩

namespace Report

variable {report : Report}

theorem mem_keyFileRecords {entry : KeyFile × Record} :
    entry ∈ report.keyFileRecords ↔
      entry.1 ∈ report.keyFiles ∧ report.files.find? entry.1.path = some entry.2 := by
  obtain ⟨key, record⟩ := entry
  unfold keyFileRecords
  rw [List.mem_filterMap]
  constructor
  · rintro ⟨k, hk, hfind⟩
    obtain ⟨r, hr, heq⟩ := Option.map_eq_some_iff.1 hfind
    cases heq
    exact ⟨hk, hr⟩
  · rintro ⟨hk, hfind⟩
    exact ⟨key, hk, by rw [hfind]; rfl⟩

/-- If each key file has a record, no key file is lost. -/
theorem map_fst_keyFileRecords
    (h : ∀ k ∈ report.keyFiles, ∃ r, report.files.find? k.path = some r) :
    report.keyFileRecords.map Prod.fst = report.keyFiles := by
  have hsome : ∀ k ∈ report.keyFiles,
      ((report.files.find? k.path).map fun r => (k, r)).map Prod.fst = some k := by
    intro k hk
    obtain ⟨r, hr⟩ := h k hk
    rw [hr]
    rfl
  rw [keyFileRecords, List.map_filterMap, List.filterMap_congr hsome, List.filterMap_some]

/-- **Key files lead the ranking.**  For every set of records, all of them are ranked with their
scores, the highest score first and equal ones in the order of the set.  The key files are the first
of these, as many as the limit allows, so that what is left out has a lower score than all that is
kept, or the same score and a later place.  In the report on the set, each key file comes with one
record, which has its path and its score. -/
theorem key_files_lead_ranking (settings : Settings) (pushed : List Record) :
    let set := RecordSet.ofList pushed
    let paths := set.toList.map Record.path
    let ranked := rank settings.scoring set
    let kept := SourceAtlas.keyFiles settings.scoring set
    let report := ofRecords settings set
    paths.Nodup ∧
      ranked.Perm (set.toList.map fun r => ⟨r.path, importance settings.scoring r⟩) ∧
      ranked.Pairwise (KeyFile.Outranks paths) ∧
      kept <+: ranked ∧
      kept.length = min settings.scoring.keyFileLimit set.size ∧
      (∀ k ∈ kept, ∀ r ∈ set.toList, r.path ∉ kept.map KeyFile.path →
        k.Outranks paths ⟨r.path, importance settings.scoring r⟩) ∧
      report.keyFiles = kept ∧
      report.keyFileRecords.map Prod.fst = kept ∧
      ∀ entry ∈ report.keyFileRecords, entry.2 ∈ set.toList ∧ entry.2.path = entry.1.path ∧
        importance settings.scoring entry.2 = entry.1.score := by
  intro set paths ranked kept report
  have hholds := RecordSet.holds_ofList pushed
  have hnodup := hholds.nodup_path
  refine ⟨hnodup, perm_rank_scored settings.scoring set, pairwise_rank settings.scoring hnodup,
    List.take_prefix _ _, length_keyFiles settings.scoring set,
    fun k hk r hr hleft => outranks_of_mem_keyFiles hnodup hk hr hleft, rfl, ?_, ?_⟩
  · apply map_fst_keyFileRecords
    intro k hk
    obtain ⟨r, -, hfind, -⟩ := exists_find?_of_mem_keyFiles hholds hk
    exact ⟨r, hfind⟩
  · intro entry hentry
    obtain ⟨hk, hfind⟩ := mem_keyFileRecords.1 hentry
    obtain ⟨r, hr, hfind', hpath, hscore⟩ := exists_find?_of_mem_keyFiles hholds hk
    have heq : entry.2 = r := Option.some.inj (hfind.symm.trans hfind')
    rw [heq]
    exact ⟨hr, hpath, hscore⟩

end Report

end SourceAtlas
