import Mathlib.Data.List.Induction
import Mathlib.Data.List.Nodup
import SourceAtlas.Record.Json

/-!
What record sets keep.

* `RecordSet.toList_push`, `RecordSet.contains_index_push`: a record is appended unless its path is
  there, and the index follows.
* `RecordSet.toList_ofList_of_nodup`: records with distinct paths are all kept, in their order.
* `RecordSet.Holds`: what a set holds after some records were pushed. `RecordSet.Holds.push` is one
  more push, `RecordSet.holds_ofList` a whole run of them.
* `RecordSet.keeps_first_of_each_path`: every run of pushes keeps the first record with each path,
  and the index finds it.
-/

namespace SourceAtlas.RecordSet

theorem toList_push (s : RecordSet) (r : Record) :
    (s.push r).toList = if s.index.contains r.path then s.toList else s.toList ++ [r] := by
  unfold push push?
  split
  · rfl
  · simp [toList]

theorem toList_of_push? {s t : RecordSet} {r : Record} (h : s.push? r = some t) :
    t.toList = s.toList ++ [r] := by
  unfold push? at h
  split at h
  · cases h
  · cases h
    simp [toList]

theorem contains_index_push (s : RecordSet) (r : Record) (path : String) :
    (s.push r).index.contains path = (s.index.contains path || r.path == path) := by
  unfold push push?
  split
  · rename_i hmem
    rw [Option.getD_none]
    by_cases hpath : r.path = path
    · simp [← hpath, hmem]
    · simp [hpath]
  · rw [Option.getD_some, Std.HashMap.contains_insert, Bool.or_comm]

/-- New records with distinct paths are appended one after the other. -/
theorem toList_foldl_push (records : List Record) {s : RecordSet}
    (hnew : ∀ r ∈ records, s.index.contains r.path = false)
    (hnodup : (records.map Record.path).Nodup) :
    (records.foldl push s).toList = s.toList ++ records := by
  induction records generalizing s with
  | nil => simp
  | cons r records ih =>
    rw [List.map_cons, List.nodup_cons] at hnodup
    have hr : s.index.contains r.path = false := hnew r List.mem_cons_self
    have hrest : ∀ q ∈ records, (s.push r).index.contains q.path = false := by
      intro q hq
      have hne : r.path ≠ q.path := fun e => hnodup.1 (e ▸ List.mem_map_of_mem hq)
      rw [contains_index_push, hnew q (List.mem_cons_of_mem _ hq)]
      simpa using hne
    rw [List.foldl_cons, ih hrest hnodup.2, toList_push, hr, if_neg (by simp), List.append_assoc]
    rfl

/-- Records with distinct paths are all kept, in their order. -/
theorem toList_ofList_of_nodup {records : List Record} (h : (records.map Record.path).Nodup) :
    (ofList records).toList = records := by
  have hnew : ∀ r ∈ records, empty.index.contains r.path = false := by
    intro r _
    simp [empty]
  rw [ofList, toList_foldl_push records hnew h]
  simp [empty, toList]

/-! ## runs of pushes -/

theorem ofList_concat (records : List Record) (r : Record) :
    ofList (records ++ [r]) = (ofList records).push r := by
  simp [ofList]

/-- The record at a position, if none before it has its path. -/
def first? (pushed : List Record) (i : Nat) : Option Record :=
  pushed[i]?.filter fun r => (pushed.take i).all fun q => q.path != r.path

/-- The records that are the first with their path, in order. -/
def firsts (pushed : List Record) : List Record :=
  (List.range pushed.length).filterMap (first? pushed)

theorem first?_concat_of_lt {pushed : List Record} (r : Record) {i : Nat} (h : i < pushed.length) :
    first? (pushed ++ [r]) i = first? pushed i := by
  unfold first?
  rw [List.getElem?_append_left h, List.take_append_of_le_length (Nat.le_of_lt h)]

theorem first?_concat_length (pushed : List Record) (r : Record) :
    first? (pushed ++ [r]) pushed.length =
      if r.path ∈ pushed.map Record.path then none else some r := by
  unfold first?
  rw [List.getElem?_concat_length, List.take_left' rfl]
  split
  · rename_i hmem
    obtain ⟨q, hq, hpath⟩ := List.mem_map.1 hmem
    refine Option.filter_eq_none_iff.2 fun r' hr' hall => ?_
    cases hr'
    have hne := List.all_eq_true.1 hall q hq
    simp [hpath] at hne
  · rename_i hnew
    refine Option.filter_eq_some_iff.2 ⟨rfl, List.all_eq_true.2 fun q hq => ?_⟩
    have hne : q.path ≠ r.path := fun e => hnew (e ▸ List.mem_map_of_mem hq)
    simpa using hne

/-- One more record is the first with its path, or is none. -/
theorem firsts_concat (pushed : List Record) (r : Record) :
    firsts (pushed ++ [r]) =
      firsts pushed ++ if r.path ∈ pushed.map Record.path then [] else [r] := by
  have hbefore : (List.range pushed.length).filterMap (first? (pushed ++ [r])) = firsts pushed :=
    List.filterMap_congr fun i hi => first?_concat_of_lt r (List.mem_range.1 hi)
  have hlast : [pushed.length].filterMap (first? (pushed ++ [r])) =
      if r.path ∈ pushed.map Record.path then [] else [r] := by
    rw [List.filterMap_cons, first?_concat_length]
    by_cases hmem : r.path ∈ pushed.map Record.path
    · rw [if_pos hmem, if_pos hmem]
      rfl
    · rw [if_neg hmem, if_neg hmem]
      rfl
  rw [firsts, List.length_append, List.length_singleton, List.range_succ, List.filterMap_append,
    hbefore, hlast]

theorem mem_map_path_firsts {pushed : List Record} {path : String} :
    path ∈ (firsts pushed).map Record.path ↔ path ∈ pushed.map Record.path := by
  induction pushed using List.reverseRecOn with
  | nil => rfl
  | append_singleton pushed r ih =>
    rw [firsts_concat, List.map_append, List.mem_append, ih, List.map_append, List.mem_append]
    split
    · rename_i hmem
      refine ⟨Or.imp_right fun h => absurd h (by simp), ?_⟩
      rintro (h | h)
      · exact Or.inl h
      · rw [List.map_singleton, List.mem_singleton] at h
        exact Or.inl (h ▸ hmem)
    · rfl

theorem nodup_path_firsts (pushed : List Record) : ((firsts pushed).map Record.path).Nodup := by
  induction pushed using List.reverseRecOn with
  | nil => exact List.nodup_nil
  | append_singleton pushed r ih =>
    rw [firsts_concat, List.map_append]
    split
    · simpa using ih
    · rename_i hnew
      refine List.nodup_append.2 ⟨ih, List.nodup_singleton r.path, ?_⟩
      intro a ha b hb hab
      rw [mem_map_path_firsts] at ha
      exact hnew (List.mem_singleton.1 hb ▸ hab ▸ ha)

/-- What a set holds after the records in `pushed` were pushed: the first of them with each path,
and an index that leads from their paths, and from no others, to their positions. -/
structure Holds (s : RecordSet) (pushed : List Record) : Prop where
  toList_eq : s.toList = firsts pushed
  index_iff : ∀ (path : String) (i : Nat),
    s.index[path]? = some i ↔ ∃ r, s.records[i]? = some r ∧ r.path = path

theorem holds_empty : empty.Holds [] where
  toList_eq := rfl
  index_iff path i := by simp [empty]

namespace Holds

variable {s : RecordSet} {pushed : List Record}

theorem index_lt (h : s.Holds pushed) {path : String} {i : Nat} (hi : s.index[path]? = some i) :
    i < s.records.size := by
  obtain ⟨r, hr, -⟩ := (h.index_iff path i).1 hi
  exact (Array.getElem?_eq_some_iff.1 hr).1

/-- The paths in the index are those of the records that were pushed. -/
theorem contains_iff (h : s.Holds pushed) {path : String} :
    s.index.contains path = true ↔ path ∈ pushed.map Record.path := by
  rw [← mem_map_path_firsts, ← h.toList_eq, Std.HashMap.contains_eq_isSome_getElem?,
    Option.isSome_iff_exists]
  constructor
  · rintro ⟨i, hi⟩
    obtain ⟨r, hr, rfl⟩ := (h.index_iff path i).1 hi
    refine List.mem_map_of_mem (List.mem_of_getElem? (i := i) ?_)
    rwa [toList, Array.getElem?_toList]
  · intro hpath
    obtain ⟨r, hr, rfl⟩ := List.mem_map.1 hpath
    obtain ⟨i, hi⟩ := List.getElem?_of_mem hr
    rw [toList, Array.getElem?_toList] at hi
    exact ⟨i, (h.index_iff r.path i).2 ⟨r, hi, rfl⟩⟩

theorem isSome_push?_iff (h : s.Holds pushed) {r : Record} :
    (s.push? r).isSome = true ↔ r.path ∉ pushed.map Record.path := by
  rw [push?, ← h.contains_iff]
  split <;> simp_all

theorem push_of_mem (h : s.Holds pushed) {r : Record} (hr : r.path ∈ pushed.map Record.path) :
    s.push r = s := by
  rw [push, push?, if_pos (h.contains_iff.2 hr), Option.getD_none]

theorem push_of_not_mem (h : s.Holds pushed) {r : Record} (hr : r.path ∉ pushed.map Record.path) :
    s.push r = ⟨s.records.push r, s.index.insert r.path s.records.size⟩ := by
  rw [push, push?, if_neg fun hmem => hr (h.contains_iff.1 hmem), Option.getD_some]

/-- One more push. -/
theorem push (h : s.Holds pushed) (r : Record) : (s.push r).Holds (pushed ++ [r]) := by
  by_cases hr : r.path ∈ pushed.map Record.path
  · -- neither the records nor the index change
    rw [h.push_of_mem hr]
    refine ⟨?_, h.index_iff⟩
    rw [firsts_concat, if_pos hr, List.append_nil, h.toList_eq]
  · have hnone : s.index[r.path]? = none := by
      rw [← Option.not_isSome_iff_eq_none, ← Std.HashMap.contains_eq_isSome_getElem?,
        h.contains_iff]
      exact hr
    rw [h.push_of_not_mem hr]
    refine ⟨?_, fun path i => ?_⟩
    · rw [firsts_concat, if_neg hr, ← h.toList_eq]
      simp [toList]
    · show (s.index.insert r.path s.records.size)[path]? = some i ↔
        ∃ q, (s.records.push r)[i]? = some q ∧ q.path = path
      rw [Std.HashMap.getElem?_insert, Array.getElem?_push]
      by_cases hpath : r.path = path
      · -- the new position is the only one with this path
        subst hpath
        rw [if_pos (by simp), Option.some.injEq]
        constructor
        · rintro rfl
          exact ⟨r, by simp, rfl⟩
        · rintro ⟨q, hq, hqr⟩
          split at hq
          · rename_i hi
            exact hi.symm
          · have := (h.index_iff r.path i).2 ⟨q, hq, hqr⟩
            rw [hnone] at this
            cases this
      · rw [if_neg (by simpa using hpath), h.index_iff]
        constructor
        · rintro ⟨q, hq, hqp⟩
          have hlt := (Array.getElem?_eq_some_iff.1 hq).1
          exact ⟨q, by rwa [if_neg (by omega)], hqp⟩
        · rintro ⟨q, hq, hqp⟩
          split at hq
          · cases hq
            exact absurd hqp hpath
          · exact ⟨q, hq, hqp⟩

theorem nodup_path (h : s.Holds pushed) : (s.toList.map Record.path).Nodup := by
  rw [h.toList_eq]
  exact nodup_path_firsts pushed

/-- A record is found by its path. -/
theorem find?_of_mem (h : s.Holds pushed) {r : Record} (hr : r ∈ s.toList) :
    s.find? r.path = some r := by
  obtain ⟨i, hi⟩ := List.getElem?_of_mem hr
  rw [toList, Array.getElem?_toList] at hi
  rw [find?, (h.index_iff r.path i).2 ⟨r, hi, rfl⟩]
  exact hi

/-- The record that the index finds is the one that a search from the front finds. -/
theorem find?_eq (h : s.Holds pushed) (path : String) :
    s.find? path = s.toList.find? fun r => r.path == path := by
  rw [find?]
  cases hfound : s.toList.find? fun r => r.path == path with
  | none =>
    cases hi : s.index[path]? with
    | none => rfl
    | some i =>
      obtain ⟨r, hr, hpath⟩ := (h.index_iff path i).1 hi
      have hmem : r ∈ s.toList := Array.mem_toList_iff.2 (Array.mem_of_getElem? hr)
      have hne := List.find?_eq_none.1 hfound r hmem
      exact absurd (by simpa using hpath) hne
  | some r =>
    have hpath : r.path = path := by simpa using List.find?_some hfound
    obtain ⟨i, hi⟩ := List.getElem?_of_mem (List.mem_of_find?_eq_some hfound)
    rw [toList, Array.getElem?_toList] at hi
    rw [(h.index_iff path i).2 ⟨r, hi, hpath⟩]
    exact hi

end Holds

/-- A whole run of pushes. -/
theorem holds_ofList (pushed : List Record) : (ofList pushed).Holds pushed := by
  induction pushed using List.reverseRecOn with
  | nil => exact holds_empty
  | append_singleton pushed r ih =>
    rw [ofList_concat]
    exact ih.push r

/-- A set lists the records that it was made from exactly if no two of them have the same path. -/
theorem toList_ofList_eq_iff {records : List Record} :
    (ofList records).toList = records ↔ (records.map Record.path).Nodup := by
  refine ⟨fun h => ?_, toList_ofList_of_nodup⟩
  rw [← h]
  exact (holds_ofList records).nodup_path

theorem find?_firsts (pushed : List Record) (path : String) :
    (firsts pushed).find? (fun r => r.path == path) = pushed.find? fun r => r.path == path := by
  induction pushed using List.reverseRecOn with
  | nil => rfl
  | append_singleton pushed r ih =>
    rw [firsts_concat, List.find?_append, List.find?_append, ih]
    split
    · rename_i hmem
      by_cases hpath : r.path = path
      · -- an earlier record has this path
        obtain ⟨q, hq, hqr⟩ := List.mem_map.1 hmem
        have hsome : (pushed.find? fun q => q.path == path).isSome = true :=
          List.find?_isSome.2 ⟨q, hq, by simp [hqr, hpath]⟩
        obtain ⟨first, hfirst⟩ := Option.isSome_iff_exists.1 hsome
        rw [hfirst]
        rfl
      · simp [hpath]
    · rfl

/-- **The first record with each path is kept.**  After any run of pushes, and so for a set that was
made from a list or decoded from JSON, the records are the first ones with their paths, in the order
in which they were pushed.  One more push succeeds exactly if no record with its path was pushed
before, and otherwise changes nothing.  The index leads from the paths that are there, and from no
others, to their positions, none of which lies beyond the records; and the record that is found for
a path is the first one pushed with it. -/
theorem keeps_first_of_each_path (pushed : List Record) :
    (ofList pushed).toList = firsts pushed ∧
      (∀ r, (((ofList pushed).push? r).isSome = true ↔ ∀ q ∈ pushed, q.path ≠ r.path) ∧
        ofList (pushed ++ [r]) = (ofList pushed).push r ∧
        ((∃ q ∈ pushed, q.path = r.path) → (ofList pushed).push r = ofList pushed)) ∧
      (∀ (path : String) (i : Nat), (ofList pushed).index[path]? = some i ↔
        ∃ r, (ofList pushed).records[i]? = some r ∧ r.path = path) ∧
      (∀ (path : String) (i : Nat), (ofList pushed).index[path]? = some i →
        i < (ofList pushed).records.size) ∧
      (∀ path, (ofList pushed).find? path = pushed.find? fun r => r.path == path) ∧
      ∀ v s, RecordSet.ofJson? v = some s →
        ∃ decoded, Json.listOf Record.ofJson? v = some decoded ∧ s = ofList decoded := by
  have h := holds_ofList pushed
  refine ⟨h.toList_eq, fun r => ⟨?_, ofList_concat pushed r, ?_⟩, h.index_iff,
    fun path i hi => h.index_lt hi, fun path => ?_, fun v s hs => ?_⟩
  · rw [h.isSome_push?_iff]
    simp
  · rintro ⟨q, hq, hpath⟩
    exact h.push_of_mem (hpath ▸ List.mem_map_of_mem hq)
  · rw [h.find?_eq, h.toList_eq, find?_firsts]
  · obtain ⟨decoded, hdecoded, rfl⟩ := Option.map_eq_some_iff.1 hs
    exact ⟨decoded, hdecoded, rfl⟩

end SourceAtlas.RecordSet
