/-!
Computations that may break off, one after the other.

* `Except.bind_eq_ok_iff`, `Except.map_eq_ok_iff` and their counterparts for errors: a computation
  of several steps goes through if each step does.
* `mapM_eq_ok_iff`, `mapM_eq_error_iff`: the same for a list, which breaks off at the first element
  that does.
-/

namespace SourceAtlas

universe u

variable {ε α β : Type u}

namespace Except

theorem bind_eq_ok_iff {x : Except ε α} {f : α → Except ε β} {b : β} :
    x.bind f = .ok b ↔ ∃ a, x = .ok a ∧ f a = .ok b := by
  cases x <;> simp [Except.bind]

theorem bind_eq_error_iff {x : Except ε α} {f : α → Except ε β} {e : ε} :
    x.bind f = .error e ↔ x = .error e ∨ ∃ a, x = .ok a ∧ f a = .error e := by
  cases x <;> simp [Except.bind]

theorem map_eq_ok_iff {x : Except ε α} {f : α → β} {b : β} :
    x.map f = .ok b ↔ ∃ a, x = .ok a ∧ f a = b := by
  cases x <;> simp [Except.map]

theorem map_eq_error_iff {x : Except ε α} {f : α → β} {e : ε} :
    x.map f = .error e ↔ x = .error e := by
  cases x <;> simp [Except.map]

end Except

theorem mapM_cons_eq_bind (f : α → Except ε β) (x : α) (xs : List α) :
    (x :: xs).mapM f = (f x).bind fun y => (xs.mapM f).map (y :: ·) := by
  rw [List.mapM_cons]
  cases f x with
  | error e => rfl
  | ok y => cases xs.mapM f <;> rfl

/-- A list goes through if each element does. -/
theorem mapM_eq_ok_iff {f : α → Except ε β} {xs : List α} {ys : List β} :
    xs.mapM f = .ok ys ↔ xs.map f = ys.map .ok := by
  induction xs generalizing ys with
  | nil =>
    rw [List.mapM_nil, List.map_nil, eq_comm (a := []), List.map_eq_nil_iff]
    exact ⟨fun h => (Except.ok.inj h).symm, fun h => h ▸ rfl⟩
  | cons x xs ih =>
    rw [mapM_cons_eq_bind, Except.bind_eq_ok_iff, List.map_cons]
    constructor
    · rintro ⟨y, hy, h⟩
      obtain ⟨zs, hzs, rfl⟩ := Except.map_eq_ok_iff.1 h
      rw [hy, ih.1 hzs, List.map_cons]
    · intro h
      obtain ⟨y, zs, rfl, hy, hzs⟩ := List.map_eq_cons_iff.1 h.symm
      exact ⟨y, hy.symm, Except.map_eq_ok_iff.2 ⟨zs, ih.2 hzs.symm, rfl⟩⟩

theorem mem_iff_of_mapM_eq_ok {f : α → Except ε β} {xs : List α} {ys : List β}
    (h : xs.mapM f = .ok ys) {y : β} : y ∈ ys ↔ ∃ x ∈ xs, f x = .ok y := by
  rw [← List.mem_map, mapM_eq_ok_iff.1 h, List.mem_map]
  simp

/-- A list breaks off at the first element that does. -/
theorem mapM_eq_error_iff {f : α → Except ε β} {xs : List α} {e : ε} :
    xs.mapM f = .error e ↔ ∃ before x after, xs = before ++ x :: after ∧
      (∀ y ∈ before, ∃ b, f y = .ok b) ∧ f x = .error e := by
  induction xs with
  | nil =>
    rw [List.mapM_nil]
    constructor
    · intro h
      cases h
    · rintro ⟨before, x, after, h, -⟩
      simp at h
  | cons x xs ih =>
    rw [mapM_cons_eq_bind, Except.bind_eq_error_iff]
    constructor
    · rintro (h | ⟨y, hy, h⟩)
      · exact ⟨[], x, xs, rfl, by simp, h⟩
      · obtain ⟨before, z, after, rfl, hbefore, hz⟩ := ih.1 (Except.map_eq_error_iff.1 h)
        exact ⟨x :: before, z, after, rfl, List.forall_mem_cons.2 ⟨⟨y, hy⟩, hbefore⟩, hz⟩
    · rintro ⟨before, z, after, h, hbefore, hz⟩
      cases before with
      | nil =>
        obtain ⟨rfl, rfl⟩ := List.cons.inj h
        exact Or.inl hz
      | cons first before =>
        obtain ⟨rfl, rfl⟩ := List.cons.inj h
        obtain ⟨⟨y, hy⟩, hbefore⟩ := List.forall_mem_cons.1 hbefore
        exact Or.inr ⟨y, hy, Except.map_eq_error_iff.2 (ih.2 ⟨before, z, after, rfl, hbefore, hz⟩)⟩

theorem exists_mapM_eq_ok_iff {f : α → Except ε β} {xs : List α} :
    (∃ ys, xs.mapM f = .ok ys) ↔ ∀ x ∈ xs, ∃ y, f x = .ok y := by
  constructor
  · rintro ⟨ys, h⟩ x hx
    have hmem : f x ∈ ys.map .ok := mapM_eq_ok_iff.1 h ▸ List.mem_map_of_mem hx
    obtain ⟨y, -, hy⟩ := List.mem_map.1 hmem
    exact ⟨y, hy.symm⟩
  · intro hall
    cases h : xs.mapM f with
    | ok ys => exact ⟨ys, rfl⟩
    | error e =>
      obtain ⟨before, x, after, rfl, -, hx⟩ := mapM_eq_error_iff.1 h
      obtain ⟨y, hy⟩ := hall x (by simp)
      rw [hx] at hy
      cases hy

end SourceAtlas
