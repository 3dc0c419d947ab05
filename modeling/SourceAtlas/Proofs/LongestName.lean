import Mathlib.Data.List.Perm.Subperm
import SourceAtlas.Proofs.Search

/-!
A name at the end of a pattern is as long as possible.

* `Step.targets`, `Pattern.leadsWithin_compile`: the steps of a pattern lead no further than
  its end.
* `Program.EndsInRun`: the last steps of a program keep a run of characters. Whoever can read one
  more character is preferred to the match, and comes back to it.
* `Program.Orderly`, `Program.orderly_follow_loop`: what this means for the threads of one position.
* `Program.Found.not_contains`: no character of the run follows what is found.
* `Declaration.exists_name_of_find?`: a rule that ends with a name.
-/

namespace SourceAtlas

/-! ## where the steps of a pattern lead -/

/-- The places that a step at place `q` leads to. -/
def Step.targets (q : Nat) : Step → List Nat
  | .take _ | .check _ | .mark _ => [q + 1]
  | .jump target => [target]
  | .fork first second => [first, second]

/-- Steps that are placed from `base` on lead no further than `limit`. -/
def LeadsWithin (limit base : Nat) (code : List Step) : Prop :=
  ∀ (i : Nat) (step : Step), code[i]? = some step →
    ∀ target ∈ step.targets (base + i), target ≤ limit

namespace LeadsWithin

variable {limit base : Nat} {code : List Step}

theorem nil : LeadsWithin limit base [] := by
  intro i step h
  cases h

theorem cons {step : Step} (hstep : ∀ target ∈ step.targets base, target ≤ limit)
    (h : LeadsWithin limit (base + 1) code) : LeadsWithin limit base (step :: code) := by
  intro i s hs
  cases i with
  | zero =>
    cases hs
    exact hstep
  | succ i =>
    rw [show base + (i + 1) = base + 1 + i by omega]
    exact h i s hs

theorem append {more : List Step} (h : LeadsWithin limit base code)
    (h' : LeadsWithin limit (base + code.length) more) : LeadsWithin limit base (code ++ more) := by
  intro i s hs
  by_cases hi : i < code.length
  · rw [List.getElem?_append_left hi] at hs
    exact h i s hs
  · rw [List.getElem?_append_right (by omega)] at hs
    have := h' (i - code.length) s hs
    rwa [show base + code.length + (i - code.length) = base + i by omega] at this

theorem mono {limit' : Nat} (h : LeadsWithin limit base code) (hle : limit ≤ limit') :
    LeadsWithin limit' base code :=
  fun i s hs target ht => Nat.le_trans (h i s hs target ht) hle

end LeadsWithin

namespace Pattern

theorem leadsWithin_compile (p : Pattern) (base : Nat) :
    LeadsWithin (base + (p.compile base).length) base (p.compile base) := by
  induction p generalizing base with
  | empty => exact .nil
  | char set => exact .cons (by simp [Step.targets, compile]) .nil
  | edge e => exact .cons (by simp [Step.targets, compile]) .nil
  | seq a b iha ihb =>
    refine .append ((iha base).mono ?_) ((ihb _).mono ?_) <;>
      simp only [compile, List.length_append] <;> omega
  | orElse a b iha ihb =>
    refine .cons ?_ (.append ((iha (base + 1)).mono ?_) (.cons ?_ ?_))
    · simp only [Step.targets, List.mem_cons, List.not_mem_nil, or_false, compile,
        List.length_append, List.length_cons]
      omega
    · simp only [compile, List.length_append, List.length_cons]
      omega
    · simp only [Step.targets, List.mem_cons, List.not_mem_nil, or_false, compile,
        List.length_append, List.length_cons]
      omega
    · rw [show base + 1 + (a.compile (base + 1)).length + 1 =
        base + (a.compile (base + 1)).length + 2 by omega]
      refine (ihb _).mono ?_
      simp only [compile, List.length_append, List.length_cons]
      omega
  | many short a ih =>
    refine .cons ?_ (.append ((ih (base + 1)).mono ?_) (.cons ?_ .nil))
    · simp only [compile, List.length_append, List.length_cons, List.length_nil]
      cases short <;>
        simp only [Step.targets, List.mem_cons, List.not_mem_nil, or_false, if_true,
          Bool.false_eq_true, if_false] <;> omega
    · simp only [compile, List.length_append, List.length_cons]
      omega
    · simp only [Step.targets, List.mem_cons, List.not_mem_nil, or_false]
      omega
  | keep a ih =>
    refine .cons ?_ (.append ((ih (base + 1)).mono ?_) (.cons ?_ .nil)) <;>
      simp only [Step.targets, List.mem_cons, List.not_mem_nil, or_false, compile,
        List.length_append, List.length_cons, List.length_nil] <;> omega

theorem compile_sequence_concat (parts : List Pattern) (last : Pattern) (base : Nat) :
    (sequence (parts ++ [last])).compile base =
      (sequence parts).compile base ++
        last.compile (base + ((sequence parts).compile base).length) := by
  induction parts generalizing base with
  | nil => exact List.append_nil _
  | cons p parts ih =>
    have hcons : ∀ rest, (sequence (p :: rest)).compile base =
        p.compile base ++ (sequence rest).compile (base + (p.compile base).length) := fun _ => rfl
    rw [List.cons_append, hcons, hcons, ih, List.append_assoc, List.length_append, Nat.add_assoc]

end Pattern

/-! ## a run of characters at the end -/

namespace Program

variable {program : Program} {set : CharSet} {loop : Nat}

/-- The last four steps keep a run of characters of a set, as long a one as possible: a fork, the
character, the way back and the end of the kept text. From before them only the fork is reached. -/
structure EndsInRun (program : Program) (set : CharSet) (loop : Nat) : Prop where
  size_eq : program.size = loop + 4
  fork : program[loop]? = some (.fork (loop + 1) (loop + 3))
  take : program[loop + 1]? = some (.take set)
  jump : program[loop + 2]? = some (.jump loop)
  mark : program[loop + 3]? = some (.mark false)
  entry : ∀ q < loop, ∀ step, program[q]? = some step → ∀ target ∈ step.targets q, target ≤ loop

theorem EndsInRun.stop (h : EndsInRun program set loop) : program[loop + 4]? = none := by
  rw [← h.size_eq]
  exact Array.getElem?_eq_none (Nat.le_refl _)

/-- A program whose last part is a kept name. -/
theorem endsInRun_program (parts : List Pattern) (first rest : CharSet) :
    EndsInRun (Pattern.sequence (parts ++ [Declaration.nameFrom first rest])).program rest
      (((Pattern.sequence parts).compile 0).length + 2) := by
  have hsteps : (Pattern.sequence (parts ++ [Declaration.nameFrom first rest])).program =
      ((Pattern.sequence parts).compile 0 ++
        (Declaration.nameFrom first rest).compile
          ((Pattern.sequence parts).compile 0).length).toArray := by
    rw [Pattern.program, Pattern.compile_sequence_concat, Nat.zero_add]
  have hwithin := (Pattern.sequence parts).leadsWithin_compile 0
  rw [Nat.zero_add] at hwithin
  rw [hsteps]
  generalize (Pattern.sequence parts).compile 0 = front at hwithin
  -- the steps of the name, one by one
  have hlast : ∀ i, (front ++ (Declaration.nameFrom first rest).compile front.length)[front.length +
      i]? = [.mark true, .take first, .fork (front.length + 3) (front.length + 5), .take rest,
        .jump (front.length + 2), .mark false][i]? := by
    intro i
    rw [List.getElem?_append_right (by omega), Nat.add_sub_cancel_left]
    rfl
  refine ⟨by simp [Declaration.nameFrom, Pattern.run, Pattern.compile], ?_, ?_, ?_, ?_, ?_⟩
  · simpa using hlast 2
  · simpa using hlast 3
  · simpa using hlast 4
  · simpa using hlast 5
  · intro q hq step hstep target htarget
    rw [List.getElem?_toArray] at hstep
    by_cases hfront : q < front.length
    · rw [List.getElem?_append_left hfront] at hstep
      have := hwithin q step hstep target (by rwa [Nat.zero_add])
      omega
    · obtain ⟨i, rfl⟩ := Nat.exists_eq_add_of_le (Nat.not_lt.1 hfront)
      rw [hlast] at hstep
      have hi : i = 0 ∨ i = 1 := by omega
      rcases hi with rfl | rfl <;> cases hstep <;>
        simp only [Step.targets, List.mem_singleton] at htarget <;> omega

/-! ## the threads of one position -/

/-- What has been met at a position, and the threads noted there, the preferred one last: if the
fork of the run has been met, a match is noted, and whoever can read one more character is preferred
to it. -/
structure Orderly (program : Program) (loop : Nat) (found : List Nat × List Thread) : Prop where
  nodup : found.1.Nodup
  le_size : ∀ q ∈ found.1, q ≤ program.size
  unmet : loop ∉ found.1 → loop + 1 ∉ found.1 ∧ loop + 3 ∉ found.1 ∧ loop + 4 ∉ found.1
  matched : loop ∈ found.1 → ∃ t ∈ found.2, t.place = loop + 4
  ordered : ∀ front t back, found.2 = front ++ t :: back → t.place = loop + 4 →
    ∃ u ∈ back, u.place = loop + 1

theorem orderly_start : Orderly program loop ([], []) :=
  ⟨List.nodup_nil, by simp, by simp, by simp, by simp⟩

/-- No more places are met than there are. -/
theorem length_le_of_nodup {seen : List Nat} (hnodup : seen.Nodup)
    (hle : ∀ q ∈ seen, q ≤ program.size) : seen.length ≤ program.size + 1 := by
  have hsub : seen ⊆ List.range (program.size + 1) := by
    intro q hq
    have := hle q hq
    rw [List.mem_range]
    omega
  simpa using (hnodup.subperm hsub).length_le

/-- A thread that stands before the fork, or on the way back to it, is noted. -/
theorem Orderly.note {t : Thread} {seen : List Nat} {live noted : List Thread}
    (h : Orderly program loop (seen, live)) (hseen : t.place ∉ seen)
    (hplace : t.place < loop ∨ t.place = loop + 2) (hle : t.place ≤ program.size)
    (hnoted : noted = t :: live ∨ noted = live) :
    Orderly program loop (t.place :: seen, noted) := by
  obtain ⟨hnodup, hsize, hunmet, hmatched, hordered⟩ := h
  refine ⟨List.nodup_cons.2 ⟨hseen, hnodup⟩, ?_, ?_, ?_, ?_⟩
  · intro q hq
    rcases List.mem_cons.1 hq with rfl | hq
    · exact hle
    · exact hsize q hq
  · intro hloop
    obtain ⟨h1, h3, h4⟩ := hunmet fun hmem => hloop (List.mem_cons_of_mem _ hmem)
    simp only [List.mem_cons, not_or]
    exact ⟨⟨by omega, h1⟩, ⟨by omega, h3⟩, by omega, h4⟩
  · intro hloop
    rcases List.mem_cons.1 hloop with e | hloop
    · omega
    · obtain ⟨u, hu, hplace⟩ := hmatched hloop
      rcases hnoted with rfl | rfl
      · exact ⟨u, List.mem_cons_of_mem _ hu, hplace⟩
      · exact ⟨u, hu, hplace⟩
  · intro front u back e hu
    rcases hnoted with rfl | rfl
    · cases front with
      | nil =>
        cases e
        omega
      | cons v front =>
        rw [List.cons_append, List.cons.injEq] at e
        exact hordered front u back e.2 hu
    · exact hordered front u back e hu

/-- At the fork, the thread that reads on is noted first and then the match. -/
theorem EndsInRun.follow_loop (h : EndsInRun program set loop) {t : Thread} {seen : List Nat}
    (ht : t.place = loop) (hloop : loop ∉ seen)
    (hunmet : loop + 1 ∉ seen ∧ loop + 3 ∉ seen ∧ loop + 4 ∉ seen) (position : Nat)
    (before after : Option Char) (fuel : Nat) (live : List Thread) :
    program.follow position before after (fuel + 3) t (seen, live) =
      ((loop + 4) :: (loop + 3) :: (loop + 1) :: loop :: seen,
        ⟨loop + 4, t.begun, t.begun.map fun b => (b, position)⟩ :: ⟨loop + 1, t.begun, t.kept⟩ ::
          live) := by
  obtain ⟨place, begun, kept⟩ := t
  subst ht
  obtain ⟨h1, h3, h4⟩ := hunmet
  have hread : program.follow position before after (fuel + 2) ⟨place + 1, begun, kept⟩
      (place :: seen, live) =
        ((place + 1) :: place :: seen, ⟨place + 1, begun, kept⟩ :: live) := by
    rw [follow_succ (by simpa using h1)]
    simp [exits, waits, step?, h.take]
  have hmatch : program.follow position before after (fuel + 2) ⟨place + 3, begun, kept⟩
      ((place + 1) :: place :: seen, ⟨place + 1, begun, kept⟩ :: live) =
        ((place + 4) :: (place + 3) :: (place + 1) :: place :: seen,
          ⟨place + 4, begun, begun.map fun b => (b, position)⟩ :: ⟨place + 1, begun, kept⟩ ::
            live) := by
    rw [follow_succ (by simpa using h3)]
    simp only [exits, waits, step?, h.mark, List.foldl_cons, List.foldl_nil, Bool.false_eq_true,
      if_false]
    have hnew : place + 4 ∉ (place + 3) :: (place + 1) :: place :: seen := by
      simp only [List.mem_cons, not_or]
      exact ⟨by omega, by omega, by omega, h4⟩
    rw [follow_succ hnew]
    simp [exits, waits, step?, h.stop]
  rw [follow_succ hloop]
  simp only [exits, waits, step?, h.fork, List.foldl_cons, List.foldl_nil, Bool.false_eq_true,
    if_false]
  rw [hread, hmatch]

theorem orderly_follow_loop (h : EndsInRun program set loop) {t : Thread} {seen : List Nat}
    {live : List Thread} (ht : t.place = loop) {fuel : Nat}
    (hfuel : program.size + 1 ≤ fuel + seen.length) (hinv : Orderly program loop (seen, live))
    (position : Nat) (before after : Option Char) :
    Orderly program loop (program.follow position before after fuel t (seen, live)) ∧
      loop ∈ (program.follow position before after fuel t (seen, live)).1 ∧
      seen ⊆ (program.follow position before after fuel t (seen, live)).1 := by
  by_cases hloop : loop ∈ seen
  · rw [follow_of_mem (ht ▸ hloop)]
    exact ⟨hinv, hloop, List.Subset.refl seen⟩
  · obtain ⟨h1, h3, h4⟩ := hinv.unmet hloop
    have hsize := h.size_eq
    have hnodup : ((loop + 4) :: (loop + 3) :: (loop + 1) :: loop :: seen).Nodup := by
      simp only [List.nodup_cons, List.mem_cons, not_or]
      exact ⟨⟨by omega, by omega, by omega, h4⟩, ⟨by omega, by omega, h3⟩, ⟨by omega, h1⟩, hloop,
        hinv.nodup⟩
    have hle : ∀ q ∈ (loop + 4) :: (loop + 3) :: (loop + 1) :: loop :: seen, q ≤ program.size := by
      intro q hq
      simp only [List.mem_cons] at hq
      rcases hq with rfl | rfl | rfl | rfl | hq
      · omega
      · omega
      · omega
      · omega
      · exact hinv.le_size q hq
    -- four places have not been met, so there is fuel for the three steps
    have hlength := length_le_of_nodup hnodup hle
    simp only [List.length_cons] at hlength
    obtain ⟨k, rfl⟩ : ∃ k, fuel = k + 3 := ⟨fuel - 3, by omega⟩
    rw [h.follow_loop ht hloop ⟨h1, h3, h4⟩]
    refine ⟨⟨hnodup, hle, ?_, ?_, ?_⟩, by simp, fun q hq => by simp [hq]⟩
    · intro hmem
      simp at hmem
    · intro _
      exact ⟨_, List.mem_cons_self, rfl⟩
    · intro front u back e hu
      cases front with
      | nil =>
        cases e
        exact ⟨_, List.mem_cons_self, rfl⟩
      | cons v front =>
        cases front with
        | nil =>
          cases e
          simp at hu
        | cons w front =>
          simp only [List.cons_append, List.cons.injEq] at e
          exact hinv.ordered front u back e.2.2 hu

/-- The thread stands before the last steps, or on the way back to their fork. -/
def Returns (loop : Nat) (t : Thread) : Prop := t.place ≤ loop ∨ t.place = loop + 2

/-- Who has met the way back has met the fork. -/
structure Settled (program : Program) (loop : Nat) (found : List Nat × List Thread) : Prop
    extends Orderly program loop found where
  back : loop + 2 ∈ found.1 → loop ∈ found.1

theorem exists_targets_of_mem_exits {position : Nat} {before after : Option Char} {t u : Thread}
    (h : u ∈ program.exits position before after t) :
    ∃ step, program[t.place]? = some step ∧ u.place ∈ step.targets t.place := by
  unfold exits at h
  cases hstep : program.step? t with
  | none => simp [hstep] at h
  | some step =>
    rw [hstep] at h
    refine ⟨step, hstep, ?_⟩
    cases step with
    | take set => cases h
    | check edge =>
      dsimp only at h
      split at h
      · cases List.mem_singleton.1 h
        exact List.mem_singleton_self _
      · cases h
    | jump target =>
      cases List.mem_singleton.1 h
      exact List.mem_singleton_self _
    | fork first second =>
      simp only [List.mem_cons, List.not_mem_nil, or_false] at h
      rcases h with rfl | rfl <;> simp [Step.targets]
    | mark begins =>
      cases begins <;> cases List.mem_singleton.1 h <;> exact List.mem_singleton_self _

theorem settled_follow (h : EndsInRun program set loop) {fuel : Nat} {t : Thread} {seen : List Nat}
    {live : List Thread} (ht : Returns loop t) (hfuel : program.size + 1 ≤ fuel + seen.length)
    (hinv : Settled program loop (seen, live)) (position : Nat) (before after : Option Char) :
    Settled program loop (program.follow position before after fuel t (seen, live)) ∧
      t.place ∈ (program.follow position before after fuel t (seen, live)).1 ∧
      seen ⊆ (program.follow position before after fuel t (seen, live)).1 := by
  have hsize := h.size_eq
  have hplace : t.place ≤ program.size := by
    rcases ht with ht | ht <;> omega
  induction fuel generalizing t seen live with
  | zero =>
    -- every place has been met
    have hmem : t.place ∈ seen := by
      by_contra hseen
      have hlength := length_le_of_nodup (List.nodup_cons.2 ⟨hseen, hinv.nodup⟩)
        (List.forall_mem_cons.2 ⟨hplace, hinv.le_size⟩)
      rw [List.length_cons] at hlength
      omega
    exact ⟨hinv, hmem, List.Subset.refl seen⟩
  | succ fuel ih =>
    by_cases hseen : t.place ∈ seen
    · rw [follow_of_mem hseen]
      exact ⟨hinv, hseen, List.Subset.refl seen⟩
    by_cases hloop : t.place = loop
    · obtain ⟨horderly, hmem, hsub⟩ :=
        orderly_follow_loop h hloop hfuel hinv.toOrderly position before after
      exact ⟨⟨horderly, fun _ => hmem⟩, hloop ▸ hmem, hsub⟩
    have hbefore : t.place < loop ∨ t.place = loop + 2 := by
      rcases ht with ht | ht <;> omega
    have hnoted : (if program.waits t then t :: live else live) = t :: live ∨
        (if program.waits t then t :: live else live) = live := by
      split
      · exact Or.inl rfl
      · exact Or.inr rfl
    have hnote := hinv.toOrderly.note hseen hbefore hplace hnoted
    rw [follow_succ hseen]
    rcases hbefore with hlt | hback
    · have hstart : Settled program loop
          (t.place :: seen, if program.waits t then t :: live else live) := by
        refine ⟨hnote, fun hmem => ?_⟩
        rcases List.mem_cons.1 hmem with e | hmem
        · omega
        · exact List.mem_cons_of_mem _ (hinv.back hmem)
      have hfold := List.foldlRecOn (motive := fun found : List Nat × List Thread =>
        Settled program loop found ∧ t.place :: seen ⊆ found.1)
        (program.exits position before after t)
        (fun found u => program.follow position before after fuel u found)
        ⟨hstart, List.Subset.refl _⟩ (by
          intro found hfound u hu
          obtain ⟨hsettled, hsub⟩ := hfound
          obtain ⟨step, hstep, htarget⟩ := exists_targets_of_mem_exits hu
          have hle : u.place ≤ loop := h.entry t.place hlt step hstep u.place htarget
          -- a place has been met for the fuel that is spent
          have hlength := (hnote.nodup.subperm hsub).length_le
          rw [List.length_cons] at hlength
          obtain ⟨hsettled', -, hsub'⟩ :=
            ih (Or.inl hle) (by omega) hsettled (by omega)
          exact ⟨hsettled', List.Subset.trans hsub hsub'⟩)
      obtain ⟨hsettled, hsub⟩ := hfold
      exact ⟨hsettled, hsub List.mem_cons_self, fun q hq => hsub (List.mem_cons_of_mem _ hq)⟩
    · have hexits : program.exits position before after t = [{ t with place := loop }] := by
        simp [exits, step?, hback, h.jump]
      have hleft : program.size + 1 ≤ fuel + (t.place :: seen).length := by
        rw [List.length_cons]
        omega
      rw [hexits, List.foldl_cons, List.foldl_nil]
      obtain ⟨horderly, hmem, hsub⟩ := orderly_follow_loop h (t := { t with place := loop }) rfl
        hleft hnote position before after
      exact ⟨⟨horderly, fun _ => hmem⟩, hsub List.mem_cons_self,
        fun q hq => hsub (List.mem_cons_of_mem _ hq)⟩

theorem exists_settled_reach (h : EndsInRun program set loop) (position : Nat)
    (before after : Option Char) {starts : List Thread} (hstarts : ∀ t ∈ starts, Returns loop t) :
    ∃ found, Settled program loop found ∧
      program.reach position before after starts = found.2.reverse ∧
      ∀ t ∈ starts, t.place ∈ found.1 := by
  have hrun : ∀ found, Settled program loop found → ∃ last,
      starts.foldl (fun found t =>
        program.follow position before after (program.size + 1) t found) found = last ∧
      Settled program loop last ∧ found.1 ⊆ last.1 ∧ ∀ t ∈ starts, t.place ∈ last.1 := by
    induction starts with
    | nil =>
      intro found hfound
      exact ⟨found, rfl, hfound, List.Subset.refl _, by simp⟩
    | cons t starts ih =>
      intro found hfound
      obtain ⟨ht, hstarts⟩ := List.forall_mem_cons.1 hstarts
      have hfuel : program.size + 1 ≤ program.size + 1 + found.1.length := Nat.le_add_right _ _
      obtain ⟨hsettled, hmem, hsub⟩ := settled_follow h ht hfuel hfound position before after
      obtain ⟨last, hlast, hsettled', hsub', hmem'⟩ := ih hstarts _ hsettled
      exact ⟨last, hlast, hsettled', List.Subset.trans hsub hsub',
        List.forall_mem_cons.2 ⟨hsub' hmem, hmem'⟩⟩
  obtain ⟨last, hlast, hsettled, -, hmem⟩ := hrun ([], []) ⟨orderly_start, by simp⟩
  exact ⟨last, hsettled, congrArg (fun found => found.2.reverse) hlast, hmem⟩

/-! ## what follows a match -/

/-- If there is a match, someone preferred to it can read on. -/
theorem exists_preferred_of_find? (h : EndsInRun program set loop) (position : Nat)
    (before after : Option Char) {starts : List Thread} (hstarts : ∀ t ∈ starts, Returns loop t)
    {t : Thread}
    (ht : (program.reach position before after starts).find? program.isMatch = some t) :
    ∃ u ∈ program.preferred (program.reach position before after starts), u.place = loop + 1 := by
  obtain ⟨found, hsettled, hreach, -⟩ := exists_settled_reach h position before after hstarts
  obtain ⟨hmatch, front, back, hlive, hfront⟩ := List.find?_eq_some_iff_append.1 ht
  have hplace : t.place = loop + 4 := by
    rw [← h.size_eq]
    exact eq_of_beq hmatch
  have hfound : found.2 = back.reverse ++ t :: front.reverse := by
    rw [← List.reverse_reverse found.2, ← hreach, hlive]
    simp
  obtain ⟨u, hu, huplace⟩ := hsettled.ordered _ t _ hfound hplace
  refine ⟨u, ?_, huplace⟩
  rw [preferred, hlive, List.takeWhile_append_of_pos hfront]
  exact List.mem_append_left _ (List.mem_reverse.1 hu)

/-- Who is on the way back to the fork finds a match. -/
theorem exists_find?_of_back (h : EndsInRun program set loop) (position : Nat)
    (before after : Option Char) {starts : List Thread} (hstarts : ∀ t ∈ starts, Returns loop t)
    {u : Thread} (hu : u ∈ starts) (hplace : u.place = loop + 2) :
    ((program.reach position before after starts).find? program.isMatch).isSome := by
  obtain ⟨found, hsettled, hreach, hmem⟩ := exists_settled_reach h position before after hstarts
  obtain ⟨t, ht, htplace⟩ := hsettled.matched (hsettled.back (hplace ▸ hmem u hu))
  rw [List.find?_isSome, hreach]
  refine ⟨t, List.mem_reverse.2 ht, ?_⟩
  rw [isMatch, htplace, h.size_eq]
  exact beq_self_eq_true _

theorem returns_of_mem_read (h : EndsInRun program set loop) {c : Char} {threads : List Thread} :
    ∀ t ∈ program.read c threads, Returns loop t := by
  intro t ht
  obtain ⟨u, -, hread⟩ := List.mem_filterMap.1 ht
  cases hstep : program.step? u with
  | none => simp [hstep] at hread
  | some step =>
    cases step with
    | take other =>
      simp only [hstep, Option.ite_none_right_eq_some, Option.some.injEq] at hread
      obtain ⟨-, rfl⟩ := hread
      by_cases hlt : u.place < loop
      · exact Or.inl (h.entry u.place hlt _ hstep _ (List.mem_singleton_self _))
      · -- of the last steps only one reads
        refine Or.inr ?_
        have hsize : u.place < program.size := (Array.getElem?_eq_some_iff.1 hstep).1
        have := h.size_eq
        have hcases : u.place = loop ∨ u.place = loop + 1 ∨ u.place = loop + 2 ∨
            u.place = loop + 3 := by omega
        rw [step?] at hstep
        rcases hcases with e | e | e | e
        · rw [e, h.fork] at hstep
          cases hstep
        · show u.place + 1 = loop + 2
          omega
        · rw [e, h.jump] at hstep
          cases hstep
        · rw [e, h.mark] at hstep
          cases hstep
    | _ => simp [hstep] at hread

theorem Scanned.returns (h : EndsInRun program set loop) {cs done rest : List Char}
    {threads : List Thread} {best : Option Thread}
    (hscanned : Scanned program cs done rest threads best) :
    ∀ t ∈ scan.seeded threads best, Returns loop t := by
  have hthreads : ∀ t ∈ threads, Returns loop t := by
    cases hscanned with
    | start => simp
    | next _ => exact returns_of_mem_read h
  intro t ht
  unfold scan.seeded at ht
  split at ht
  · rcases List.mem_append.1 ht with ht | ht
    · exact hthreads t ht
    · rw [List.mem_singleton.1 ht]
      exact Or.inl (Nat.zero_le loop)
  · exact hthreads t ht

/-- **What is found is as long as possible**: no character of the run follows it. -/
theorem Found.not_contains (h : EndsInRun program set loop) {cs done rest : List Char} {t : Thread}
    (hfound : Found program cs done rest t) : ∀ c ∈ rest.head?, set.contains c = false := by
  obtain ⟨threads, best, hscanned, hfind, hlast⟩ := hfound
  intro c hc
  obtain ⟨rest', rfl⟩ := List.head?_eq_some_iff.1 hc
  by_contra hcontains
  rw [Bool.not_eq_false] at hcontains
  obtain ⟨u, hu, huplace⟩ := exists_preferred_of_find? h _ _ _ (hscanned.returns h) hfind
  -- the preferred thread reads the character and finds a match after it
  have hread : { u with place := loop + 2 } ∈
      program.read c (program.preferred (program.liveAt done (c :: rest') threads best)) := by
    refine List.mem_filterMap.2 ⟨u, hu, ?_⟩
    simp [step?, huplace, h.take, hcontains]
  have hmatch := exists_find?_of_back h (done ++ [c]).length (done ++ [c]).getLast? rest'.head?
    (returns_of_mem_read h) hread rfl
  have hnone := hlast c rest' rfl
  rw [liveAt, scan.seeded, if_neg (by simp)] at hnone
  rw [hnone] at hmatch
  cases hmatch

end Program

/-! ## rules that end with a name -/

theorem Pattern.Fits.text {p : Pattern} {r s : Reading} (h : p.Fits r s) :
    s.done ++ s.rest = r.done ++ r.rest := by
  induction h with
  | empty r => rfl
  | char _ => simp
  | edge _ => rfl
  | seq _ _ iha ihb => exact ihb.trans iha
  | left _ ih => exact ih
  | right _ ih => exact ih
  | stop r => rfl
  | again _ _ iha ihb => exact ihb.trans iha
  | keep _ ih => exact ih

namespace Declaration

open Pattern

theorem exists_name_of_fits {first rest : CharSet} {r s : Reading}
    (h : (nameFrom first rest).Fits r s) :
    ∃ c name, first.contains c = true ∧ (∀ d ∈ name, rest.contains d = true) ∧
      r.rest = c :: name ++ s.rest ∧ s.done = r.done ++ c :: name ∧
      s.kept = some (r.done.length, s.done.length) := by
  cases h with
  | keep h =>
    obtain _ | _ | _ | ⟨hfirst, hrun⟩ := h
    obtain ⟨c, hc, hreads⟩ := hfirst.reads_char
    obtain ⟨name, hname, hreads'⟩ := hrun.reads_run
    have hall := hreads.trans hreads'
    refine ⟨c, name, hc, hname, hall.rest, hall.done, ?_⟩
    simp [Reading.closed, hall.begun, Reading.opened]

/-- **A name at the end of a pattern**: the parts before it fit, and it is kept up to the first
character that cannot belong to it. -/
theorem exists_name_of_find? {parts : List Pattern} {first rest : CharSet} {cs : List Char}
    {kept : Option (List Char)}
    (h : (sequence (parts ++ [nameFrom first rest])).program.find? cs = some kept) :
    ∃ before after r c name tail, before ++ after = cs ∧
      (sequence parts).Fits ⟨before, after, none, none⟩ r ∧ cs = r.done ++ c :: name ++ tail ∧
      kept = some (c :: name) ∧ first.contains c = true ∧ (∀ d ∈ name, rest.contains d = true) ∧
      ∀ d ∈ tail.head?, rest.contains d = false := by
  obtain ⟨done, tail, t, hfound, rfl⟩ := Program.exists_found_of_find? h
  have hnext := hfound.not_contains (Program.endsInRun_program parts first rest)
  obtain ⟨before, after, hcs, hfits⟩ := hfound.exists_fits
  obtain ⟨r, hparts, hlast⟩ := hfits.of_sequence_append
  obtain ⟨s, hname, hend⟩ := hlast.of_sequence_cons
  cases hend.of_sequence_nil
  obtain ⟨c, name, hc, hall, hrest, hdone, hkept⟩ := exists_name_of_fits hname
  have htext : cs = r.done ++ c :: name ++ tail := by
    rw [← hcs, List.append_assoc]
    exact hparts.text.symm.trans (congrArg (r.done ++ ·) hrest)
  refine ⟨before, after, r, c, name, tail, hcs, hparts, htext, ?_, hc, hall, hnext⟩
  have hlength : (t.reading done tail).done.length - r.done.length = (c :: name).length := by
    rw [hdone, List.length_append]
    omega
  change t.kept = _ at hkept
  rw [hkept]
  show some ((cs.drop r.done.length).take ((t.reading done tail).done.length - r.done.length)) = _
  rw [hlength, htext, List.append_assoc, List.drop_left, List.take_left]

end Declaration

end SourceAtlas
