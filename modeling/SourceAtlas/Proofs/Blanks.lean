import Mathlib.Data.List.DropRight
import SourceAtlas.Proofs.Lines
import SourceAtlas.Text.Word

/-!
Blanks, and the text between them.

* `trim_eq_self_iff`, `trim_trim`: a text loses nothing exactly if no blank stands at its ends.
* `trim_concat_of_isBlank`: a blank at the end does not matter.
* `isWord_eq_false_of_isBlank`: no blank is a word character.
-/

namespace SourceAtlas.Text

/-! ## the ends of a text -/

theorem trimEnd_eq_rdropWhile (cs : List Char) : trimEnd cs = cs.rdropWhile isBlank := rfl

theorem trimStart_eq_self_iff {cs : List Char} :
    trimStart cs = cs ↔ ∀ c ∈ cs.head?, isBlank c = false := by
  unfold trimStart
  rw [List.dropWhile_eq_self_iff]
  cases cs <;> simp

theorem trimEnd_eq_self_iff {cs : List Char} :
    trimEnd cs = cs ↔ ∀ c ∈ cs.getLast?, isBlank c = false := by
  rw [trimEnd_eq_rdropWhile, List.rdropWhile_eq_self_iff]
  constructor
  · intro h c hc
    have hne : cs ≠ [] := by
      rintro rfl
      cases hc
    rw [List.getLast?_eq_some_getLast hne, Option.mem_def, Option.some.injEq] at hc
    simpa [← hc] using h hne
  · intro h hne
    simpa using h _ (List.getLast_mem_getLast? hne)

theorem trim_eq_self_iff {cs : List Char} :
    trim cs = cs ↔
      (∀ c ∈ cs.head?, isBlank c = false) ∧ ∀ c ∈ cs.getLast?, isBlank c = false := by
  rw [← trimStart_eq_self_iff, ← trimEnd_eq_self_iff]
  constructor
  · intro h
    have hlength : (trimStart cs).length = cs.length := by
      apply Nat.le_antisymm (List.length_dropWhile_le _ _)
      have hle := (List.rdropWhile_prefix isBlank (l := trimStart cs)).length_le
      rwa [← trimEnd_eq_rdropWhile, show trimEnd (trimStart cs) = cs from h] at hle
    have hstart : trimStart cs = cs := (List.dropWhile_suffix isBlank).eq_of_length hlength
    refine ⟨hstart, ?_⟩
    rw [trim, hstart] at h
    exact h
  · rintro ⟨hstart, hend⟩
    rw [trim, hstart, hend]

/-- A text that has been trimmed has nothing more to lose. -/
theorem trim_trim (cs : List Char) : trim (trim cs) = trim cs := by
  have hend : trimEnd (trim cs) = trim cs := List.rdropWhile_idempotent isBlank (trimStart cs)
  refine trim_eq_self_iff.2 ⟨?_, trimEnd_eq_self_iff.1 hend⟩
  intro c hc
  -- what is left begins as the text without the blanks before it
  have hfront : trimStart (trimStart cs) = trimStart cs := List.dropWhile_idempotent isBlank cs
  apply trimStart_eq_self_iff.1 hfront c
  obtain ⟨tail, htail⟩ := List.rdropWhile_prefix isBlank (l := trimStart cs)
  rw [← htail, Option.mem_def, List.head?_append]
  change (trim cs).head? = some c at hc
  rw [← trimEnd_eq_rdropWhile, show trimEnd (trimStart cs) = trim cs from rfl, hc]
  rfl

theorem trim_eq_self_of_forall {cs : List Char} (h : ∀ c ∈ cs, isBlank c = false) : trim cs = cs :=
  trim_eq_self_iff.2
    ⟨fun c hc => h c (List.mem_of_mem_head? hc), fun c hc => h c (List.mem_of_mem_getLast? hc)⟩

/-- A blank at the end is lost. -/
theorem trim_concat_of_isBlank {c : Char} (hc : isBlank c = true) (cs : List Char) :
    trim (cs ++ [c]) = trim cs := by
  unfold trim trimStart
  by_cases hblank : ∀ x ∈ cs, isBlank x = true
  · have hall : ∀ x ∈ cs ++ [c], isBlank x = true := by
      intro x hx
      rcases List.mem_append.1 hx with hx | hx
      · exact hblank x hx
      · rwa [List.mem_singleton.1 hx]
    rw [List.dropWhile_eq_nil_iff.2 hall, List.dropWhile_eq_nil_iff.2 hblank]
  · have hne : (cs.dropWhile isBlank).isEmpty = false := by
      rw [List.isEmpty_eq_false_iff]
      intro h
      exact hblank (List.dropWhile_eq_nil_iff.1 h)
    rw [List.dropWhile_append, hne]
    exact List.rdropWhile_concat_pos isBlank _ c hc

/-! ## blanks and words -/

/-- The code points of the blanks. -/
def blankCodes : List Nat :=
  [9, 10, 11, 12, 13, 32, 0x85, 0xA0, 0x1680, 0x2000, 0x2001, 0x2002, 0x2003, 0x2004, 0x2005,
    0x2006, 0x2007, 0x2008, 0x2009, 0x200A, 0x2028, 0x2029, 0x202F, 0x205F, 0x3000]

theorem mem_blankCodes_of_isBlank {c : Char} (h : isBlank c = true) : c.toNat ∈ blankCodes := by
  simp only [isBlank, Bool.or_eq_true, Bool.and_eq_true, decide_eq_true_eq, beq_iff_eq] at h
  simp only [blankCodes, List.mem_cons, List.not_mem_nil, or_false]
  omega

theorem isWord_eq_false_of_isBlank {c : Char} (h : isBlank c = true) : isWord c = false := by
  have htable : ∀ n ∈ blankCodes, isWord (Char.ofNat n) = false := by decide +kernel
  simpa using htable c.toNat (mem_blankCodes_of_isBlank h)

end SourceAtlas.Text
