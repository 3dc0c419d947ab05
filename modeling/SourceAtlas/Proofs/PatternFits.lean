import SourceAtlas.Declaration.Rule

/-!
What a pattern reads.

* `Reading`: a place in a text, and what has been kept on the way to it.
* `Pattern.Fits`: a pattern leads from one place to another. It says what a pattern means, without a
  program.
* `Step.Leads`, `Program.Path`: what a single step does, and runs of steps.
* `Pattern.exists_fits_of_path`: a run that leaves the steps of a pattern has read what fits it.
* `Reading.Reads`: a text is read and nothing kept; most patterns do no more.
-/

namespace SourceAtlas

/-- A place in a text: what stands before and after it, and what has been kept. -/
structure Reading where
  done : List Char
  rest : List Char
  begun : Option Nat
  kept : Option (Nat × Nat)

namespace Reading

/-- The kept text begins here. -/
def opened (r : Reading) : Reading := { r with begun := some r.done.length }

/-- The kept text ends here. -/
def closed (r : Reading) : Reading :=
  { r with kept := r.begun.map fun b => (b, r.done.length) }

end Reading

/-- A pattern leads from one place in a text to another. -/
inductive Pattern.Fits : Pattern → Reading → Reading → Prop
  | empty (r : Reading) : Fits .empty r r
  | char {set : CharSet} {c : Char} {done rest : List Char} {begun : Option Nat}
      {kept : Option (Nat × Nat)} (h : set.contains c = true) :
      Fits (.char set) ⟨done, c :: rest, begun, kept⟩ ⟨done ++ [c], rest, begun, kept⟩
  | edge {e : Edge} {r : Reading} (h : e.holds r.done.getLast? r.rest.head? = true) :
      Fits (.edge e) r r
  | seq {a b : Pattern} {r s t : Reading} (ha : Fits a r s) (hb : Fits b s t) :
      Fits (.seq a b) r t
  | left {a b : Pattern} {r s : Reading} (h : Fits a r s) : Fits (.orElse a b) r s
  | right {a b : Pattern} {r s : Reading} (h : Fits b r s) : Fits (.orElse a b) r s
  | stop {short : Bool} {a : Pattern} (r : Reading) : Fits (.many short a) r r
  | again {short : Bool} {a : Pattern} {r s t : Reading} (ha : Fits a r s)
      (hmany : Fits (.many short a) s t) : Fits (.many short a) r t
  | keep {a : Pattern} {r s : Reading} (h : Fits a r.opened s) : Fits (.keep a) r s.closed

/-! ## runs of a program -/

/-- Where a step at place `q` leads. -/
def Step.Leads (q : Nat) (r : Reading) (y : Nat × Reading) : Step → Prop
  | .take set => ∃ c rest, r.rest = c :: rest ∧ set.contains c = true ∧
      y = (q + 1, { r with done := r.done ++ [c], rest := rest })
  | .check edge => edge.holds r.done.getLast? r.rest.head? = true ∧ y = (q + 1, r)
  | .jump target => y = (target, r)
  | .fork first second => y = (first, r) ∨ y = (second, r)
  | .mark true => y = (q + 1, r.opened)
  | .mark false => y = (q + 1, r.closed)

namespace Program

variable {program : Program}

/-- A run of a program, with the number of its steps. -/
inductive Path (program : Program) : Nat → Nat × Reading → Nat × Reading → Prop
  | refl (x : Nat × Reading) : Path program 0 x x
  | head {n q : Nat} {r : Reading} {y z : Nat × Reading} {step : Step}
      (hstep : program[q]? = some step) (hleads : step.Leads q r y) (h : Path program n y z) :
      Path program (n + 1) (q, r) z

theorem Path.tail {n q : Nat} {x y : Nat × Reading} {r : Reading} {step : Step}
    (h : Path program n x (q, r)) (hstep : program[q]? = some step) (hleads : step.Leads q r y) :
    Path program (n + 1) x y := by
  generalize hz : (q, r) = z at h
  induction h with
  | refl x =>
    subst hz
    exact .head hstep hleads (.refl y)
  | head hfirst hlead _ ih => exact .head hfirst hlead (ih hz)

/-- A run that is not at its end makes the step that stands there. -/
theorem Path.exists_leads {n q : Nat} {r : Reading} {target : Nat × Reading} {step : Step}
    (h : Path program n (q, r) target) (hq : q < target.1) (hstep : program[q]? = some step) :
    ∃ k y, n = k + 1 ∧ step.Leads q r y ∧ Path program k y target := by
  cases h with
  | refl => exact absurd hq (Nat.lt_irrefl q)
  | head hstep' hleads h =>
    rw [hstep, Option.some.injEq] at hstep'
    subst hstep'
    exact ⟨_, _, rfl, hleads, h⟩

/-- Some steps stand in a program from a place on. -/
def CodeAt (program : Program) (base : Nat) (code : List Step) : Prop :=
  ∀ i < code.length, program[base + i]? = code[i]?

theorem CodeAt.left {base : Nat} {code more : List Step} (h : CodeAt program base (code ++ more)) :
    CodeAt program base code := by
  intro i hi
  rw [h i (by rw [List.length_append]; omega), List.getElem?_append_left hi]

theorem CodeAt.right {base : Nat} {code more : List Step} (h : CodeAt program base (code ++ more)) :
    CodeAt program (base + code.length) more := by
  intro i hi
  rw [Nat.add_assoc, h (code.length + i) (by rw [List.length_append]; omega),
    List.getElem?_append_right (by omega), Nat.add_sub_cancel_left]

theorem CodeAt.head {base : Nat} {step : Step} {code : List Step}
    (h : CodeAt program base (step :: code)) : program[base]? = some step :=
  h 0 (Nat.succ_pos _)

theorem CodeAt.tail {base : Nat} {step : Step} {code : List Step}
    (h : CodeAt program base (step :: code)) : CodeAt program (base + 1) code := by
  have happend : CodeAt program base ([step] ++ code) := h
  exact happend.right

end Program

namespace Pattern

open Program

variable {program : Program}

/-- A run to `target` that leaves the steps of a pattern has read what fits it. -/
def FitsRuns (program : Program) (target : Nat × Reading) (p : Pattern) (base : Nat) : Prop :=
  ∀ n r, CodeAt program base (p.compile base) → Path program n (base, r) target →
    base + (p.compile base).length ≤ target.1 →
    ∃ m s, m ≤ n ∧ p.Fits r s ∧ Path program m (base + (p.compile base).length, s) target

/-- A repetition comes back to its beginning after every round, so the run gets shorter. -/
theorem fitsRuns_many {target : Nat × Reading} {a : Pattern} {base : Nat} (short : Bool)
    (ha : FitsRuns program target a (base + 1)) : FitsRuns program target (.many short a) base := by
  intro n
  induction n using Nat.strongRecOn with
  | ind n ih =>
    intro r hcode hpath hend
    have hlength : ((many short a).compile base).length =
        (a.compile (base + 1)).length + 2 := by simp [compile]
    rw [hlength] at hend ⊢
    have hbody : CodeAt program (base + 1) (a.compile (base + 1)) := hcode.tail.left
    have hjump : program[base + 1 + (a.compile (base + 1)).length]? = some (.jump base) :=
      hcode.tail.right.head
    obtain ⟨k, y, rfl, hleads, hrest⟩ := hpath.exists_leads (by omega) hcode.head
    have hy : y = (base + 1, r) ∨ y = (base + ((a.compile (base + 1)).length + 2), r) := by
      cases short with
      | true => exact hleads.symm
      | false => exact hleads
    rcases hy with rfl | rfl
    · obtain ⟨m, s, hm, hfits, hrest⟩ := ha k r hbody hrest (by omega)
      obtain ⟨m', y, rfl, rfl, hrest⟩ := hrest.exists_leads (by omega) hjump
      obtain ⟨l, t, hl, hmany, hrest⟩ := ih m' (by omega) s hcode hrest (by rw [hlength]; omega)
      rw [hlength] at hrest
      exact ⟨l, t, by omega, .again hfits hmany, hrest⟩
    · exact ⟨k, r, by omega, .stop r, hrest⟩

/-- **A run that leaves the steps of a pattern has read what fits the pattern.** -/
theorem exists_fits_of_path (target : Nat × Reading) (p : Pattern) (base : Nat) :
    FitsRuns program target p base := by
  induction p generalizing base with
  | empty =>
    intro n r _ hpath _
    exact ⟨n, r, Nat.le_refl n, .empty r, hpath⟩
  | char set =>
    intro n r hcode hpath hend
    obtain ⟨k, y, rfl, ⟨c, rest, hrest, hc, rfl⟩, hpath⟩ := hpath.exists_leads hend hcode.head
    obtain ⟨done, _, begun, kept⟩ := r
    cases hrest
    exact ⟨k, _, by omega, .char hc, hpath⟩
  | edge e =>
    intro n r hcode hpath hend
    obtain ⟨k, y, rfl, ⟨he, rfl⟩, hpath⟩ := hpath.exists_leads hend hcode.head
    exact ⟨k, r, by omega, .edge he, hpath⟩
  | seq a b iha ihb =>
    intro n r hcode hpath hend
    simp only [compile, List.length_append] at hcode hend ⊢
    obtain ⟨m, s, hm, hfits, hpath⟩ := iha base n r hcode.left hpath (by omega)
    obtain ⟨l, t, hl, hfits', hpath⟩ := ihb _ m s hcode.right hpath (by omega)
    rw [Nat.add_assoc] at hpath
    exact ⟨l, t, by omega, .seq hfits hfits', hpath⟩
  | orElse a b iha ihb =>
    intro n r hcode hpath hend
    have hlength : base + ((orElse a b).compile base).length =
        base + (a.compile (base + 1)).length +
          (b.compile (base + (a.compile (base + 1)).length + 2)).length + 2 := by
      simp only [compile, List.length_append, List.length_cons]
      omega
    rw [hlength] at hend ⊢
    have hsecond := hcode.tail.right.tail
    rw [show base + 1 + (a.compile (base + 1)).length + 1 =
      base + (a.compile (base + 1)).length + 2 by omega] at hsecond
    obtain ⟨k, y, rfl, hleads, hpath⟩ := hpath.exists_leads (by omega) hcode.head
    rcases hleads with rfl | rfl
    · obtain ⟨m, s, hm, hfits, hpath⟩ := iha (base + 1) k r hcode.tail.left hpath (by omega)
      obtain ⟨l, y, rfl, rfl, hpath⟩ := hpath.exists_leads (by omega) hcode.tail.right.head
      exact ⟨l, s, by omega, .left hfits, hpath⟩
    · obtain ⟨m, s, hm, hfits, hpath⟩ := ihb _ k r hsecond hpath (by omega)
      rw [Nat.add_right_comm] at hpath
      exact ⟨m, s, by omega, .right hfits, hpath⟩
  | many short a ih => exact fitsRuns_many short (ih (base + 1))
  | keep a ih =>
    intro n r hcode hpath hend
    have hlength : base + ((keep a).compile base).length =
        base + 1 + (a.compile (base + 1)).length + 1 := by
      simp only [compile, List.length_append, List.length_cons, List.length_nil]
      omega
    rw [hlength] at hend ⊢
    obtain ⟨k, y, rfl, rfl, hpath⟩ := hpath.exists_leads (by omega) hcode.head
    obtain ⟨m, s, hm, hfits, hpath⟩ := ih (base + 1) k r.opened hcode.tail.left hpath (by omega)
    obtain ⟨l, y, rfl, rfl, hpath⟩ := hpath.exists_leads (by omega) hcode.tail.right.head
    exact ⟨l, s.closed, by omega, .keep hfits, hpath⟩

end Pattern

/-! ## what common patterns read -/

/-- A text is read, and nothing is kept. -/
structure Reading.Reads (r : Reading) (cs : List Char) (s : Reading) : Prop where
  rest : r.rest = cs ++ s.rest
  done : s.done = r.done ++ cs
  begun : s.begun = r.begun
  kept : s.kept = r.kept

namespace Reading

theorem Reads.refl (r : Reading) : r.Reads [] r := ⟨rfl, (List.append_nil _).symm, rfl, rfl⟩

theorem Reads.trans {r s t : Reading} {as bs : List Char} (h : r.Reads as s) (h' : s.Reads bs t) :
    r.Reads (as ++ bs) t := by
  refine ⟨?_, ?_, h'.begun.trans h.begun, h'.kept.trans h.kept⟩
  · rw [h.rest, h'.rest, List.append_assoc]
  · rw [h'.done, h.done, List.append_assoc]

end Reading

namespace Pattern

theorem Fits.reads_char {set : CharSet} {r s : Reading} (h : (Pattern.char set).Fits r s) :
    ∃ c, set.contains c = true ∧ r.Reads [c] s := by
  cases h with
  | char hc => exact ⟨_, hc, rfl, rfl, rfl, rfl⟩

theorem Fits.reads_text {w : String} {r s : Reading} (h : (text w).Fits r s) :
    r.Reads w.toList s := by
  unfold text at h
  generalize w.toList = cs at h ⊢
  induction cs generalizing r with
  | nil =>
    cases h
    exact .refl _
  | cons c cs ih =>
    obtain _ | _ | _ | ⟨hc, hcs⟩ := h
    obtain ⟨d, hd, hreads⟩ := hc.reads_char
    rw [eq_of_beq hd] at hreads
    exact hreads.trans (ih hcs)

theorem Fits.reads_run {set : CharSet} {r s : Reading} (h : (run set).Fits r s) :
    ∃ cs, (∀ c ∈ cs, set.contains c = true) ∧ r.Reads cs s := by
  generalize hp : run set = p at h
  induction h with
  | stop r => exact ⟨[], by simp, .refl r⟩
  | again ha _ _ ih =>
    cases hp
    obtain ⟨c, hc, hfirst⟩ := ha.reads_char
    obtain ⟨cs, hcs, hreads⟩ := ih rfl
    refine ⟨c :: cs, ?_, hfirst.trans hreads⟩
    intro x hx
    rcases List.mem_cons.1 hx with rfl | hx
    · exact hc
    · exact hcs x hx
  | _ => cases hp

theorem Fits.reads_stretch {set : CharSet} {r s : Reading} (h : (stretch set).Fits r s) :
    ∃ cs, cs ≠ [] ∧ (∀ c ∈ cs, set.contains c = true) ∧ r.Reads cs s := by
  obtain _ | _ | _ | ⟨hc, hcs⟩ := h
  obtain ⟨c, hc, hfirst⟩ := hc.reads_char
  obtain ⟨cs, hcs, hreads⟩ := hcs.reads_run
  refine ⟨c :: cs, List.cons_ne_nil c cs, ?_, hfirst.trans hreads⟩
  intro x hx
  rcases List.mem_cons.1 hx with rfl | hx
  · exact hc
  · exact hcs x hx

theorem Fits.of_optional {p : Pattern} {r s : Reading} (h : (optional p).Fits r s) :
    p.Fits r s ∨ s = r := by
  cases h with
  | left h => exact Or.inl h
  | right h =>
    cases h
    exact Or.inr rfl

theorem Fits.of_sequence_nil {r s : Reading} (h : (sequence []).Fits r s) : s = r := by
  cases h
  rfl

theorem Fits.of_sequence_cons {p : Pattern} {parts : List Pattern} {r t : Reading}
    (h : (sequence (p :: parts)).Fits r t) : ∃ s, p.Fits r s ∧ (sequence parts).Fits s t := by
  obtain _ | _ | _ | ⟨hp, hparts⟩ := h
  exact ⟨_, hp, hparts⟩

theorem Fits.of_sequence_append {parts more : List Pattern} {r t : Reading}
    (h : (sequence (parts ++ more)).Fits r t) :
    ∃ s, (sequence parts).Fits r s ∧ (sequence more).Fits s t := by
  induction parts generalizing r with
  | nil => exact ⟨r, .empty r, h⟩
  | cons p parts ih =>
    obtain ⟨m, hp, hrest⟩ := h.of_sequence_cons
    obtain ⟨s, hparts, hmore⟩ := ih hrest
    exact ⟨s, .seq hp hparts, hmore⟩

end Pattern

end SourceAtlas
