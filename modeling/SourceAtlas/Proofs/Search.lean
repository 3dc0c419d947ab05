import SourceAtlas.Proofs.PatternFits

/-!
What the search for a pattern finds.

* `Program.follow_succ`: a thread is noted and then its exits are followed, the preferred one first.
* `Program.Reaches`: a thread stands where a run of the program can get; so do all threads of a
  search.
* `Program.Scanned`, `Program.exists_found`: the states that a search passes through. What it finds
  is found in the last of them in which there is a match.
* `Program.Found.exists_fits`: what is found fits the pattern.
-/

namespace SourceAtlas

/-- A thread at a place of a text. -/
def Thread.reading (t : Thread) (done rest : List Char) : Reading := ⟨done, rest, t.begun, t.kept⟩

namespace Program

variable {program : Program}

/-! ## following a thread -/

/-- The thread waits for a character or has matched. -/
def waits (program : Program) (t : Thread) : Bool :=
  match program.step? t with
  | none | some (.take _) => true
  | _ => false

/-- Where a thread goes without reading a character, the preferred way first. -/
def exits (program : Program) (position : Nat) (before after : Option Char) (t : Thread) :
    List Thread :=
  match program.step? t with
  | none | some (.take _) => []
  | some (.check edge) => if edge.holds before after then [{ t with place := t.place + 1 }] else []
  | some (.jump target) => [{ t with place := target }]
  | some (.fork first second) => [{ t with place := first }, { t with place := second }]
  | some (.mark true) => [{ t with place := t.place + 1, begun := some position }]
  | some (.mark false) =>
    [{ t with place := t.place + 1, kept := t.begun.map fun b => (b, position) }]

theorem follow_of_mem {position : Nat} {before after : Option Char} {t : Thread} {seen : List Nat}
    (h : t.place ∈ seen) (fuel : Nat) (live : List Thread) :
    program.follow position before after fuel t (seen, live) = (seen, live) := by
  cases fuel with
  | zero => rfl
  | succ fuel => rw [follow, if_pos (List.contains_iff_mem.2 h)]

theorem follow_succ {t : Thread} {seen : List Nat} (h : t.place ∉ seen) (position : Nat)
    (before after : Option Char) (fuel : Nat) (live : List Thread) :
    program.follow position before after (fuel + 1) t (seen, live) =
      (program.exits position before after t).foldl
        (fun found u => program.follow position before after fuel u found)
        (t.place :: seen, if program.waits t then t :: live else live) := by
  rw [follow, if_neg fun hc => h (List.contains_iff_mem.1 hc)]
  unfold exits waits
  cases program.step? t with
  | none => rfl
  | some step =>
    cases step with
    | check edge => cases hedge : edge.holds before after <;> simp [hedge]
    | mark begins => cases begins <;> rfl
    | _ => rfl

/-! ## threads and runs -/

/-- A run of the program that starts somewhere in the text gets to where the thread stands. -/
def Reaches (program : Program) (done rest : List Char) (t : Thread) : Prop :=
  ∃ n before after, before ++ after = done ++ rest ∧
    Path program n (0, ⟨before, after, none, none⟩) (t.place, t.reading done rest)

theorem reaches_start (done rest : List Char) : Reaches program done rest ⟨0, none, none⟩ :=
  ⟨0, done, rest, rfl, .refl _⟩

theorem Reaches.next {done rest done' rest' : List Char} {t u : Thread} {step : Step}
    (h : Reaches program done rest t) (hstep : program.step? t = some step)
    (hleads : step.Leads t.place (t.reading done rest) (u.place, u.reading done' rest'))
    (htext : done' ++ rest' = done ++ rest) : Reaches program done' rest' u := by
  obtain ⟨n, before, after, hstart, hpath⟩ := h
  exact ⟨n + 1, before, after, hstart.trans htext.symm, hpath.tail hstep hleads⟩

theorem Reaches.exits {done rest : List Char} {t u : Thread} (h : Reaches program done rest t)
    (hu : u ∈ program.exits done.length done.getLast? rest.head? t) :
    Reaches program done rest u := by
  unfold Program.exits at hu
  cases hstep : program.step? t with
  | none => simp [hstep] at hu
  | some step =>
    rw [hstep] at hu
    refine h.next hstep ?_ rfl
    cases step with
    | take set => cases hu
    | check edge =>
      dsimp only at hu
      split at hu
      · rename_i hedge
        cases List.mem_singleton.1 hu
        exact ⟨hedge, rfl⟩
      · cases hu
    | jump target =>
      cases List.mem_singleton.1 hu
      rfl
    | fork first second =>
      simp only [List.mem_cons, List.not_mem_nil, or_false] at hu
      rcases hu with rfl | rfl
      · exact Or.inl rfl
      · exact Or.inr rfl
    | mark begins =>
      cases begins <;> cases List.mem_singleton.1 hu <;> rfl

theorem reaches_of_mem_follow {done rest : List Char} (fuel : Nat) {t : Thread} {seen : List Nat}
    {live : List Thread} (ht : Reaches program done rest t)
    (hlive : ∀ u ∈ live, Reaches program done rest u) :
    ∀ u ∈ (program.follow done.length done.getLast? rest.head? fuel t (seen, live)).2,
      Reaches program done rest u := by
  induction fuel generalizing t seen live with
  | zero => exact hlive
  | succ fuel ih =>
    by_cases hseen : t.place ∈ seen
    · rw [follow_of_mem hseen]
      exact hlive
    · rw [follow_succ hseen]
      have hnoted : ∀ u ∈ (if program.waits t then t :: live else live),
          Reaches program done rest u := by
        intro u hu
        split at hu
        · rcases List.mem_cons.1 hu with rfl | hu
          · exact ht
          · exact hlive u hu
        · exact hlive u hu
      refine List.foldlRecOn (motive := fun found : List Nat × List Thread =>
        ∀ u ∈ found.2, Reaches program done rest u) _ _ hnoted ?_
      intro found hfound v hv
      exact ih (ht.exits hv) hfound

/-! ## the states of a search -/

/-- The threads at a place of the text, the preferred one first. -/
def liveAt (program : Program) (done rest : List Char) (threads : List Thread)
    (best : Option Thread) : List Thread :=
  program.reach done.length done.getLast? rest.head? (scan.seeded threads best)

/-- The threads preferred to the first match. -/
def preferred (program : Program) (live : List Thread) : List Thread :=
  live.takeWhile fun t => !program.isMatch t

theorem reaches_of_mem_liveAt {done rest : List Char} {threads : List Thread}
    {best : Option Thread} (h : ∀ t ∈ threads, Reaches program done rest t) :
    ∀ t ∈ program.liveAt done rest threads best, Reaches program done rest t := by
  have hseeded : ∀ t ∈ scan.seeded threads best, Reaches program done rest t := by
    intro t ht
    unfold scan.seeded at ht
    split at ht
    · rcases List.mem_append.1 ht with ht | ht
      · exact h t ht
      · rw [List.mem_singleton.1 ht]
        exact reaches_start done rest
    · exact h t ht
  unfold liveAt reach
  simp only [List.mem_reverse]
  generalize scan.seeded threads best = starts at hseeded
  refine List.foldlRecOn (motive := fun found : List Nat × List Thread =>
    ∀ t ∈ found.2, Reaches program done rest t) starts _ (by simp) ?_
  intro found hfound t ht
  exact reaches_of_mem_follow _ (hseeded t ht) hfound

theorem reaches_of_mem_read {done rest : List Char} {c : Char} {threads : List Thread}
    (h : ∀ t ∈ threads, Reaches program done (c :: rest) t) :
    ∀ t ∈ program.read c threads, Reaches program (done ++ [c]) rest t := by
  intro u hu
  obtain ⟨t, ht, hread⟩ := List.mem_filterMap.1 hu
  cases hstep : program.step? t with
  | none => simp [hstep] at hread
  | some step =>
    cases step with
    | take set =>
      simp only [hstep, Option.ite_none_right_eq_some, Option.some.injEq] at hread
      obtain ⟨hc, rfl⟩ := hread
      exact (h t ht).next hstep ⟨c, rest, rfl, hc, rfl⟩ (by simp)
    | _ => simp [hstep] at hread

/-- The states in which a search reads the text: what is done, what is left, the threads before the
steps that read nothing, and the best match so far. -/
inductive Scanned (program : Program) (cs : List Char) :
    List Char → List Char → List Thread → Option Thread → Prop
  | start : Scanned program cs [] cs [] none
  | next {c : Char} {done rest : List Char} {threads : List Thread} {best : Option Thread}
      (h : Scanned program cs done (c :: rest) threads best) :
      Scanned program cs (done ++ [c]) rest
        (program.read c (program.preferred (program.liveAt done (c :: rest) threads best)))
        (((program.liveAt done (c :: rest) threads best).find? program.isMatch).or best)

theorem Scanned.text {cs done rest : List Char} {threads : List Thread} {best : Option Thread}
    (h : Scanned program cs done rest threads best) : done ++ rest = cs := by
  induction h with
  | start => rfl
  | next _ ih => simpa using ih

theorem Scanned.reaches {cs done rest : List Char} {threads : List Thread} {best : Option Thread}
    (h : Scanned program cs done rest threads best) :
    ∀ t ∈ threads, Reaches program done rest t := by
  induction h with
  | start => simp
  | next _ ih =>
    apply reaches_of_mem_read
    intro t ht
    exact reaches_of_mem_liveAt ih t ((List.takeWhile_sublist _).subset ht)

theorem scan_cons (c : Char) (done rest : List Char) (threads : List Thread)
    (best : Option Thread) :
    program.scan done.getLast? done.length threads best (c :: rest) =
      program.scan (done ++ [c]).getLast? (done ++ [c]).length
        (program.read c (program.preferred (program.liveAt done (c :: rest) threads best)))
        (((program.liveAt done (c :: rest) threads best).find? program.isMatch).or best) rest := by
  rw [scan, List.getLast?_concat, List.length_append]
  rfl

/-- A match that is found in some state and in none after it. -/
def Found (program : Program) (cs done rest : List Char) (t : Thread) : Prop :=
  ∃ threads best, Scanned program cs done rest threads best ∧
    (program.liveAt done rest threads best).find? program.isMatch = some t ∧
    ∀ c rest', rest = c :: rest' →
      (program.liveAt (done ++ [c]) rest'
        (program.read c (program.preferred (program.liveAt done rest threads best)))
        (some t)).find? program.isMatch = none

/-- A search that goes on from one of its states answers with the best match so far only if there is
none in this state, or else with one that it finds. -/
theorem exists_found {cs done rest : List Char} {threads : List Thread} {best : Option Thread}
    {t : Thread} (h : Scanned program cs done rest threads best)
    (ht : program.scan done.getLast? done.length threads best rest = some t) :
    (best = some t ∧ (program.liveAt done rest threads best).find? program.isMatch = none) ∨
      ∃ done' rest', Found program cs done' rest' t := by
  induction rest generalizing done threads best with
  | nil =>
    change ((program.liveAt done [] threads best).find? program.isMatch).or best = some t at ht
    cases hfind : (program.liveAt done [] threads best).find? program.isMatch with
    | none =>
      rw [hfind] at ht
      exact Or.inl ⟨ht, rfl⟩
    | some u =>
      rw [hfind] at ht
      cases ht
      exact Or.inr ⟨done, [], threads, best, h, hfind, fun _ _ e => nomatch e⟩
  | cons c rest ih =>
    rw [scan_cons] at ht
    rcases ih h.next ht with ⟨hbest, hnone⟩ | hfound
    · cases hfind : (program.liveAt done (c :: rest) threads best).find? program.isMatch with
      | none =>
        rw [hfind] at hbest
        exact Or.inl ⟨hbest, rfl⟩
      | some u =>
        rw [hfind] at hbest
        cases hbest
        refine Or.inr ⟨done, c :: rest, threads, best, h, hfind, ?_⟩
        rintro _ _ ⟨⟩
        rwa [hfind] at hnone
    · exact Or.inr hfound

theorem Found.text {cs done rest : List Char} {t : Thread} (h : Found program cs done rest t) :
    done ++ rest = cs := by
  obtain ⟨threads, best, hscanned, -⟩ := h
  exact hscanned.text

theorem exists_found_of_find? {cs : List Char} {kept : Option (List Char)}
    (h : program.find? cs = some kept) :
    ∃ done rest t, Found program cs done rest t ∧
      kept = t.kept.map fun (first, last) => (cs.drop first).take (last - first) := by
  obtain ⟨t, hscan, rfl⟩ := Option.map_eq_some_iff.1 h
  rcases exists_found .start hscan with ⟨hbest, -⟩ | ⟨done, rest, hfound⟩
  · cases hbest
  · exact ⟨done, rest, t, hfound, rfl⟩

/-- **What is found fits the pattern.** -/
theorem Found.exists_fits {p : Pattern} {cs done rest : List Char} {t : Thread}
    (h : Found p.program cs done rest t) :
    ∃ before after, before ++ after = cs ∧
      p.Fits ⟨before, after, none, none⟩ (t.reading done rest) := by
  have htext := h.text
  obtain ⟨threads, best, hscanned, hfind, -⟩ := h
  obtain ⟨n, before, after, hstart, hpath⟩ :=
    reaches_of_mem_liveAt hscanned.reaches t (List.mem_of_find?_eq_some hfind)
  have hplace : t.place = (p.compile 0).length := by
    simpa [isMatch, Pattern.program] using List.find?_some hfind
  have hcode : CodeAt p.program 0 (p.compile 0) := by
    intro i _
    rw [Nat.zero_add, Pattern.program, List.getElem?_toArray]
  rw [hplace] at hpath
  obtain ⟨m, s, -, hfits, hrest⟩ :=
    p.exists_fits_of_path _ 0 n _ hcode hpath (by simp)
  -- nothing follows the last step, so the run is at its end
  have hend : s = t.reading done rest := by
    rw [Nat.zero_add] at hrest
    cases hrest with
    | refl => rfl
    | head hstep =>
      rw [Pattern.program, List.getElem?_toArray, List.getElem?_eq_none (Nat.le_refl _)] at hstep
      cases hstep
  exact ⟨before, after, hstart.trans htext, hend ▸ hfits⟩

end Program

end SourceAtlas
