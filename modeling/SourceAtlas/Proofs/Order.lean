import Mathlib.Algebra.Group.Nat.Defs
import Mathlib.Data.List.Lex
import Mathlib.Order.Basic
import SourceAtlas.Text.Utf8

/-!
The order of texts and of lists of names.

* `Parts`: two lists go together for a while, then the first one goes on with something smaller.
* `Text.bytes_lt_bytes`, `Text.lt_of_bytes_lt_bytes`: texts are ordered as their bytes are.
* `Precedes`: lists of names, compared name by name and each name byte by byte.
-/

namespace SourceAtlas

/-! ## lists that part -/

section Parting

variable {α β : Type} {r : α → α → Prop} {s : β → β → Prop}

/-- Two lists begin alike, and where they first differ the first one has the smaller element. -/
def Parts (r : α → α → Prop) (xs ys : List α) : Prop :=
  ∃ front x y xs' ys', xs = front ++ x :: xs' ∧ ys = front ++ y :: ys' ∧ r x y

theorem parts_cons {x y : α} (h : r x y) (xs ys : List α) : Parts r (x :: xs) (y :: ys) :=
  ⟨[], x, y, xs, ys, rfl, rfl, h⟩

theorem Parts.append_left {xs ys : List α} (h : Parts r xs ys) (front : List α) :
    Parts r (front ++ xs) (front ++ ys) := by
  obtain ⟨common, x, y, xs', ys', rfl, rfl, hxy⟩ := h
  exact ⟨front ++ common, x, y, xs', ys', by simp, by simp, hxy⟩

theorem Parts.append {xs ys : List α} (h : Parts r xs ys) (us vs : List α) :
    Parts r (xs ++ us) (ys ++ vs) := by
  obtain ⟨common, x, y, xs', ys', rfl, rfl, hxy⟩ := h
  exact ⟨common, x, y, xs' ++ us, ys' ++ vs, by simp, by simp, hxy⟩

theorem Parts.map {f : α → β} (hf : ∀ x y, r x y → s (f x) (f y)) {xs ys : List α}
    (h : Parts r xs ys) : Parts s (xs.map f) (ys.map f) := by
  obtain ⟨common, x, y, xs', ys', rfl, rfl, hxy⟩ := h
  exact ⟨common.map f, f x, f y, xs'.map f, ys'.map f, by simp, by simp, hf x y hxy⟩

theorem Parts.of_map {f : α → β} (hinjective : Function.Injective f)
    (hf : ∀ x y, s (f x) (f y) → r x y) {xs ys : List α} (h : Parts s (xs.map f) (ys.map f)) :
    Parts r xs ys := by
  obtain ⟨common, x', y', xs', ys', hxs, hys, hxy⟩ := h
  obtain ⟨front, rest, rfl, rfl, hrest⟩ := List.map_eq_append_iff.1 hxs
  obtain ⟨front', rest', rfl, hfront, hrest'⟩ := List.map_eq_append_iff.1 hys
  obtain rfl := List.map_injective_iff.2 hinjective hfront
  obtain ⟨x, us, rfl, rfl, -⟩ := List.map_eq_cons_iff.1 hrest
  obtain ⟨y, vs, rfl, rfl, -⟩ := List.map_eq_cons_iff.1 hrest'
  exact ⟨_, x, y, us, vs, rfl, rfl, hf x y hxy⟩

theorem Parts.lex {xs ys : List α} (h : Parts r xs ys) : List.Lex r xs ys := by
  obtain ⟨common, x, y, xs', ys', rfl, rfl, hxy⟩ := h
  exact List.Lex.append_left r (List.Lex.rel hxy) common

/-- Lists that part do not meet again: neither is the beginning of the other. -/
theorem Parts.not_prefix (hr : ∀ x, ¬ r x x) {xs ys : List α} (h : Parts r xs ys) :
    ¬ xs <+: ys ∧ ¬ ys <+: xs := by
  obtain ⟨common, x, y, xs', ys', rfl, rfl, hxy⟩ := h
  have hne : x ≠ y := fun e => hr y (e ▸ hxy)
  constructor
  · intro hpre
    have := (List.prefix_append_right_inj common).1 hpre
    exact hne (List.cons_prefix_cons.1 this).1
  · intro hpre
    have := (List.prefix_append_right_inj common).1 hpre
    exact hne (List.cons_prefix_cons.1 this).1.symm

theorem Parts.ne (hr : ∀ x, ¬ r x x) {xs ys : List α} (h : Parts r xs ys) : xs ≠ ys := by
  rintro rfl
  exact (h.not_prefix hr).1 List.prefix_rfl

end Parting

/-! ## bytes -/

namespace Text

theorem bytes_eq_flatMap (s : String) : bytes s = s.toList.flatMap String.utf8EncodeChar := by
  have h : s.toByteArray = s.toList.utf8Encode := by
    conv_lhs => rw [← String.ofList_toList (s := s)]
    exact String.toByteArray_ofList
  rw [bytes, String.toUTF8_eq_toByteArray, h]
  exact List.toList_data_toByteArray

theorem bytes_append (s t : String) : bytes (s ++ t) = bytes s ++ bytes t := by
  rw [bytes_eq_flatMap, String.toList_append, List.flatMap_append, ← bytes_eq_flatMap,
    ← bytes_eq_flatMap]

theorem ofNat_lt_ofNat {m n : Nat} (hn : n < 256) (h : m < n) : UInt8.ofNat m < UInt8.ofNat n := by
  rw [UInt8.lt_iff_toNat_lt]
  simp only [UInt8.toNat_ofNat']
  omega

/-- Bytes that stand for digits: the first digit decides, or else what follows it. -/
theorem parts_ofNat_cons {m n : Nat} (hn : n < 256) {xs ys : List UInt8}
    (h : m < n ∨ m = n ∧ Parts (· < ·) xs ys) :
    Parts (· < ·) (UInt8.ofNat m :: xs) (UInt8.ofNat n :: ys) := by
  rcases h with h | ⟨rfl, h⟩
  · exact parts_cons (ofNat_lt_ofNat hn h) xs ys
  · exact h.append_left [UInt8.ofNat m]

/-- The last `k` digits to the base 64, each in a byte of its own. -/
def lastDigits : Nat → Nat → List UInt8
  | 0, _ => []
  | k + 1, v => UInt8.ofNat (v / 64 ^ k % 64 + 128) :: lastDigits k v

theorem parts_lastDigits {k m n : Nat} (hlt : m < n) (hsame : m / 64 ^ k = n / 64 ^ k) :
    Parts (· < ·) (lastDigits k m) (lastDigits k n) := by
  induction k with
  | zero =>
    simp only [Nat.pow_zero, Nat.div_one] at hsame
    omega
  | succ k ih =>
    refine parts_ofNat_cons (by omega) ?_
    by_cases hdigit : m / 64 ^ k = n / 64 ^ k
    · exact Or.inr ⟨by rw [hdigit], ih hdigit⟩
    · have hle : m / 64 ^ k ≤ n / 64 ^ k := Nat.div_le_div_right hlt.le
      rw [Nat.pow_succ, ← Nat.div_div_eq_div_mul, ← Nat.div_div_eq_div_mul] at hsame
      exact Or.inl (by omega)

/-- `n` is encoded by a byte that begins with `mark` and by `k` digits after it. -/
def Encoded (n k mark : Nat) : Prop :=
  k = 0 ∧ mark = 0 ∧ n < 128 ∨ k = 1 ∧ mark = 192 ∧ 128 ≤ n ∧ n < 2048 ∨
    k = 2 ∧ mark = 224 ∧ 2048 ≤ n ∧ n < 65536 ∨ k = 3 ∧ mark = 240 ∧ 65536 ≤ n ∧ n < 1114112

theorem exists_encoded (c : Char) : ∃ k mark, Encoded c.val.toNat k mark ∧
    String.utf8EncodeChar c =
      UInt8.ofNat (mark + c.val.toNat / 64 ^ k) :: lastDigits k c.val.toNat := by
  have hvalid : c.val.toNat < 1114112 := by
    have := c.valid
    simp only [UInt32.isValidChar, Nat.isValidChar] at this
    omega
  unfold String.utf8EncodeChar
  generalize c.val.toNat = n at hvalid
  dsimp only
  split
  · exact ⟨0, 0, Or.inl ⟨rfl, rfl, by omega⟩, by simp [lastDigits]⟩
  · split
    · refine ⟨1, 192, Or.inr (Or.inl ⟨rfl, rfl, by omega, by omega⟩), ?_⟩
      have hfirst : n / 64 % 32 + 192 = 192 + n / 64 := by omega
      simp [lastDigits, hfirst]
    · split
      · refine ⟨2, 224, Or.inr (Or.inr (Or.inl ⟨rfl, rfl, by omega, by omega⟩)), ?_⟩
        have hfirst : n / 4096 % 16 + 224 = 224 + n / 4096 := by omega
        simp [lastDigits, hfirst]
      · refine ⟨3, 240, Or.inr (Or.inr (Or.inr ⟨rfl, rfl, by omega, by omega⟩)), ?_⟩
        have hfirst : n / 262144 % 8 + 240 = 240 + n / 262144 := by omega
        simp [lastDigits, hfirst]

/-- The first byte tells how many follow, so it decides between encodings of different lengths. -/
theorem first_lt_or_eq {m n k l mark mark' : Nat} (hm : Encoded m k mark) (hn : Encoded n l mark')
    (h : m < n) : mark' + n / 64 ^ l < 256 ∧
      (mark + m / 64 ^ k < mark' + n / 64 ^ l ∨
        k = l ∧ mark = mark' ∧ m / 64 ^ k = n / 64 ^ l) := by
  rcases hm with hm | hm | hm | hm <;> rcases hn with hn | hn | hn | hn <;>
    (obtain ⟨rfl, rfl, hm⟩ := hm; obtain ⟨rfl, rfl, hn⟩ := hn; simp; omega)

/-- The bytes of a smaller character part from those of a greater one towards smaller bytes. -/
theorem parts_utf8EncodeChar {c d : Char} (h : c < d) :
    Parts (· < ·) (String.utf8EncodeChar c) (String.utf8EncodeChar d) := by
  have hlt : c.val.toNat < d.val.toNat := UInt32.lt_iff_toNat_lt.1 h
  obtain ⟨k, mark, hc, ec⟩ := exists_encoded c
  obtain ⟨l, mark', hd, ed⟩ := exists_encoded d
  obtain ⟨hbyte, hfirst⟩ := first_lt_or_eq hc hd hlt
  rw [ec, ed]
  refine parts_ofNat_cons hbyte (hfirst.imp_right ?_)
  rintro ⟨rfl, rfl, hsame⟩
  exact ⟨by rw [hsame], parts_lastDigits hlt hsame⟩

theorem utf8EncodeChar_ne_nil (c : Char) : String.utf8EncodeChar c ≠ [] := by
  obtain ⟨k, mark, -, e⟩ := exists_encoded c
  simp [e]

theorem lex_flatMap_utf8EncodeChar {cs ds : List Char} (h : List.Lex (· < ·) cs ds) :
    List.Lex (· < ·) (cs.flatMap String.utf8EncodeChar) (ds.flatMap String.utf8EncodeChar) := by
  induction h with
  | nil =>
    rename_i d ds
    obtain ⟨b, bs, e⟩ := List.exists_cons_of_ne_nil (utf8EncodeChar_ne_nil d)
    rw [List.flatMap_cons, e]
    exact List.Lex.nil
  | rel hcd =>
    rw [List.flatMap_cons, List.flatMap_cons]
    exact ((parts_utf8EncodeChar hcd).append _ _).lex
  | cons _ ih =>
    rw [List.flatMap_cons, List.flatMap_cons]
    exact List.Lex.append_left _ ih _

/-- A smaller text has smaller bytes. -/
theorem bytes_lt_bytes {s t : String} (h : s < t) : bytes s < bytes t := by
  rw [bytes_eq_flatMap, bytes_eq_flatMap]
  exact lex_flatMap_utf8EncodeChar h

theorem lt_of_bytes_lt_bytes {s t : String} (h : bytes s < bytes t) : s < t := by
  rcases Std.lt_trichotomy s t with hlt | rfl | hgt
  · exact hlt
  · exact absurd h (List.lt_irrefl _)
  · exact absurd (bytes_lt_bytes hgt) (List.lt_asymm h)

theorem bytes_injective : Function.Injective bytes := by
  intro s t h
  rcases Std.lt_trichotomy s t with hlt | heq | hgt
  · exact absurd (h ▸ bytes_lt_bytes hlt) (List.lt_irrefl _)
  · exact heq
  · exact absurd (h ▸ bytes_lt_bytes hgt) (List.lt_irrefl _)

end Text

/-! ## lists of names -/

/-- Lists of names in the order of their names, and these in the order of their bytes. -/
def Precedes (p q : List String) : Prop := p.map Text.bytes < q.map Text.bytes

theorem Parts.precedes {p q : List String} (h : Parts (· < ·) p q) : Precedes p q :=
  (h.map (f := Text.bytes) fun _ _ hxy => Text.bytes_lt_bytes hxy).lex

/-- Two lists whose elements part, each from those after it, are equal if they have the same
elements. -/
theorem eq_of_pairwise_parts {ps qs : List (List String)} (hp : ps.Pairwise (Parts (· < ·)))
    (hq : qs.Pairwise (Parts (· < ·))) (h : ∀ names, names ∈ ps ↔ names ∈ qs) : ps = qs := by
  have hne : ∀ {p q : List String}, Parts (· < ·) p q → p ≠ q :=
    fun hpq => hpq.ne String.lt_irrefl
  have hperm : ps.Perm qs := (List.perm_ext_iff_of_nodup (hp.imp hne) (hq.imp hne)).2 h
  refine List.Perm.eq_of_pairwise (fun p q _ _ hpq hqp => ?_) hp hq hperm
  exact absurd hqp.lex (List.lt_asymm hpq.lex)

end SourceAtlas
