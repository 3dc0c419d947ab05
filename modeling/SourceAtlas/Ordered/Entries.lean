/-!
Lists of entries with keys, in the order in which the entries were made.

* `Entries.put`: an entry in the place of one with the same key, or at the end.
* `Entries.rename`: an entry under a new key.
* `Entries.lookup_eq_some_iff_mem`, `Entries.lookup_put`, `Entries.lookup_rename`: what is found
  under a key.
-/

namespace SourceAtlas.Entries

variable {κ α β : Type} [BEq κ]

/-- Entries with one of them replaced, or with a new one at the end. -/
def put (key : κ) (value : α) : List (κ × α) → List (κ × α)
  | [] => [(key, value)]
  | entry :: rest =>
    if key == entry.1 then (key, value) :: rest else entry :: put key value rest

/-- Entries with one of them under a new key, where it takes the place of any other. -/
def rename (old new : κ) (entries : List (κ × α)) : List (κ × α) :=
  match entries.lookup old with
  | none => entries
  | some value => put new value (entries.filter fun entry => entry.1 != old)

theorem map_put (f : α → β) (key : κ) (value : α) (entries : List (κ × α)) :
    (put key value entries).map (fun e => (e.1, f e.2)) =
      put key (f value) (entries.map fun e => (e.1, f e.2)) := by
  induction entries with
  | nil => rfl
  | cons entry rest ih =>
    rw [put, List.map_cons, put]
    split
    · rfl
    · rw [List.map_cons, ih]

variable [LawfulBEq κ]

/-! ## look-up -/

theorem lookup_cons_of_ne {key other : κ} (h : other ≠ key) (value : α)
    (entries : List (κ × α)) :
    ((key, value) :: entries).lookup other = entries.lookup other := by
  rw [List.lookup_cons, beq_false_of_ne h]

theorem mem_of_lookup {key : κ} {value : α} {entries : List (κ × α)}
    (h : entries.lookup key = some value) : (key, value) ∈ entries := by
  obtain ⟨before, after, rfl, -⟩ := List.lookup_eq_some_iff.1 h
  simp

theorem lookup_eq_none_of_not_mem {key : κ} {entries : List (κ × α)}
    (h : key ∉ entries.map Prod.fst) : entries.lookup key = none := by
  rw [List.lookup_eq_none_iff]
  intro entry hentry
  have hne : key ≠ entry.1 := fun heq => h (List.mem_map.2 ⟨entry, hentry, heq.symm⟩)
  simpa using hne

theorem lookup_map (f : κ → α → β) (entries : List (κ × α)) (key : κ) :
    (entries.map fun e => (e.1, f e.1 e.2)).lookup key = (entries.lookup key).map (f key) := by
  induction entries with
  | nil => rfl
  | cons first rest ih =>
    obtain ⟨name, value⟩ := first
    by_cases h : key = name
    · simp [h]
    · rw [List.map_cons, lookup_cons_of_ne h, lookup_cons_of_ne h, ih]

/-- Where keys are distinct, the entries are what is found. -/
theorem lookup_eq_some_iff_mem {entries : List (κ × α)} (h : (entries.map Prod.fst).Nodup)
    {key : κ} {value : α} : entries.lookup key = some value ↔ (key, value) ∈ entries := by
  refine ⟨mem_of_lookup, fun hmem => ?_⟩
  obtain ⟨before, after, rfl⟩ := List.append_of_mem hmem
  refine List.lookup_eq_some_iff.2 ⟨before, after, rfl, fun entry hentry => ?_⟩
  rw [List.map_append, List.nodup_append] at h
  have hne := h.2.2 entry.1 (List.mem_map_of_mem hentry) key (by simp)
  simpa using Ne.symm hne

theorem lookup_reverse {entries : List (κ × α)} (h : (entries.map Prod.fst).Nodup) (key : κ) :
    entries.reverse.lookup key = entries.lookup key := by
  have hreverse : (entries.reverse.map Prod.fst).Nodup := by
    rw [List.map_reverse]
    exact List.pairwise_reverse.2 (h.imp Ne.symm)
  ext value
  rw [lookup_eq_some_iff_mem hreverse, lookup_eq_some_iff_mem h, List.mem_reverse]

/-! ## one entry changed -/

theorem map_rename (f : α → β) (old new : κ) (entries : List (κ × α)) :
    (rename old new entries).map (fun e => (e.1, f e.2)) =
      rename old new (entries.map fun e => (e.1, f e.2)) := by
  have hlookup := lookup_map (fun _ => f) entries old
  unfold rename
  rw [hlookup]
  cases entries.lookup old with
  | none => rfl
  | some value =>
    show (put new value _).map _ = put new (f value) _
    rw [map_put, List.filter_map]
    rfl

section Changed

variable [DecidableEq κ]

theorem lookup_put (key other : κ) (value : α) (entries : List (κ × α)) :
    (put key value entries).lookup other =
      if other = key then some value else entries.lookup other := by
  induction entries with
  | nil =>
    by_cases h : other = key
    · simp [put, h]
    · simp [put, h, lookup_cons_of_ne h]
  | cons entry rest ih =>
    obtain ⟨name, old⟩ := entry
    unfold put
    by_cases hname : key = name
    · subst hname
      by_cases h : other = key
      · simp [h]
      · simp [h, lookup_cons_of_ne h]
    · rw [if_neg (by simpa using hname), List.lookup_cons, List.lookup_cons, ih]
      by_cases h : other = key
      · simp [h, beq_false_of_ne hname]
      · simp [h]

theorem keys_put (key : κ) (value : α) (entries : List (κ × α)) :
    (put key value entries).map Prod.fst =
      if key ∈ entries.map Prod.fst then entries.map Prod.fst
      else entries.map Prod.fst ++ [key] := by
  induction entries with
  | nil => simp [put]
  | cons entry rest ih =>
    by_cases hkey : key = entry.1
    · simp [put, hkey]
    · rw [put, if_neg (by simpa using hkey), List.map_cons, ih, List.map_cons]
      by_cases hrest : key ∈ rest.map Prod.fst
      · simp [hrest]
      · rw [if_neg hrest, if_neg (by simpa [hkey] using hrest), List.cons_append]

theorem nodup_put {entries : List (κ × α)} (h : (entries.map Prod.fst).Nodup) (key : κ)
    (value : α) : ((put key value entries).map Prod.fst).Nodup := by
  rw [keys_put]
  split
  · exact h
  · rename_i hkey
    refine List.nodup_append.2 ⟨h, by simp, fun other hother new hnew => ?_⟩
    rw [List.mem_singleton.1 hnew]
    exact fun heq => hkey (heq ▸ hother)

theorem lookup_filter_ne (old key : κ) (entries : List (κ × α)) :
    (entries.filter fun entry => entry.1 != old).lookup key =
      if key = old then none else entries.lookup key := by
  induction entries with
  | nil => simp
  | cons entry rest ih =>
    obtain ⟨name, value⟩ := entry
    by_cases hname : name = old
    · subst hname
      rw [List.filter_cons_of_neg (by simp), ih]
      split
      · rfl
      · rename_i hkey
        rw [lookup_cons_of_ne hkey]
    · rw [List.filter_cons_of_pos (by simpa using hname), List.lookup_cons, List.lookup_cons, ih]
      by_cases hkey : key = old
      · subst hkey
        simp [beq_false_of_ne (Ne.symm hname)]
      · simp [hkey]

theorem lookup_rename {old new : κ} (entries : List (κ × α)) (key : κ) :
    (rename old new entries).lookup key =
      match entries.lookup old with
      | none => entries.lookup key
      | some value =>
        if key = new then some value else if key = old then none else entries.lookup key := by
  unfold rename
  cases entries.lookup old with
  | none => rfl
  | some value =>
    dsimp only
    rw [lookup_put, lookup_filter_ne]

end Changed

end SourceAtlas.Entries
