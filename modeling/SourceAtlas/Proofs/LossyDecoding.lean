import SourceAtlas.Proofs.Positions
import SourceAtlas.Text.Utf8

/-!
Lossy decoding shows each maximal ill-formed part of a byte sequence as one replacement character.

* `Utf8.IllFormed`: a maximal ill-formed part, said of the encodings of characters alone.
* `Utf8.Decodes`: bytes cut into encoded characters and maximal ill-formed parts.
* `Utf8.Opened`: what the decoder knows inside a character. `Utf8.lead_cases` is the first byte of a
  character, `Utf8.Opened.step` one more, `Utf8.Opened.close` the last.
* `Utf8.decodes_decodeUnits`: the decoder cuts bytes in this way.
* `Utf8.decodeLossy_bytes`, `Utf8.decode?_eq_some_iff`: the bytes of a text are read as that text,
  and no other bytes are text.
* `Utf8.countLines_decodeLossy`: the lines of the text are counted by the line feeds among the
  bytes.
-/

namespace SourceAtlas.Text

open String (utf8EncodeChar)

/-! ## encodings -/

/-- No encoding goes on where another one ends. -/
theorem encoding_prefix_inj {c d : Char} (h : utf8EncodeChar c <+: utf8EncodeChar d) : c = d := by
  have hirrefl : ∀ b : UInt8, ¬ b < b := fun b => UInt8.lt_irrefl b
  rcases Std.lt_trichotomy c d with hlt | heq | hgt
  · have hparts := Parts.not_prefix hirrefl (parts_utf8EncodeChar hlt)
    exact absurd h hparts.1
  · exact heq
  · have hparts := Parts.not_prefix hirrefl (parts_utf8EncodeChar hgt)
    exact absurd h hparts.2

/-- The first byte of an encoding as a number. -/
theorem toNat_first {v k mark : Nat} (h : Encoded v k mark) :
    (UInt8.ofNat (mark + v / 64 ^ k)).toNat = mark + v / 64 ^ k := by
  rw [UInt8.toNat_ofNat']
  rcases h with ⟨rfl, rfl, h⟩ | ⟨rfl, rfl, h⟩ | ⟨rfl, rfl, h⟩ | ⟨rfl, rfl, h⟩ <;> simp <;> omega

theorem Encoded.unique {v k l mark mark' : Nat} (hk : Encoded v k mark) (hl : Encoded v l mark') :
    k = l ∧ mark = mark' := by
  unfold Encoded at hk hl
  omega

/-- The first byte tells how many follow. -/
theorem Encoded.of_first_eq {v w k l mark mark' : Nat} (hv : Encoded v k mark)
    (hw : Encoded w l mark') (h : mark + v / 64 ^ k = mark' + w / 64 ^ l) :
    k = l ∧ mark = mark' := by
  rcases hv with hv | hv | hv | hv <;> rcases hw with hw | hw | hw | hw <;>
    (obtain ⟨rfl, rfl, hv⟩ := hv; obtain ⟨rfl, rfl, hw⟩ := hw; simp at h ⊢ <;> omega)

namespace Utf8

/-! ## ill-formed parts -/

/-- The encoding of some character begins with these bytes. -/
def Begins (part : List UInt8) : Prop := ∃ c, part <+: utf8EncodeChar c

/-- `part` is a maximal ill-formed part in front of `rest`. No character stands there, and `part` is
the longest beginning that could become one, or a single byte if none could. -/
structure IllFormed (part rest : List UInt8) : Prop where
  no_char : ∀ c, ¬ utf8EncodeChar c <+: part ++ rest
  ne_nil : part ≠ []
  begins : Begins part ∨ part.length = 1
  maximal : ∀ longer, longer <+: part ++ rest → part.length < longer.length → ¬ Begins longer

/-- The bytes are encoded characters and maximal ill-formed parts, one after the other. -/
inductive Decodes : List UInt8 → List (Option Char) → Prop where
  | nil : Decodes [] []
  | char {rest : List UInt8} {units : List (Option Char)} (c : Char) :
    Decodes rest units → Decodes (utf8EncodeChar c ++ rest) (some c :: units)
  | illFormed {part rest : List UInt8} {units : List (Option Char)} :
    IllFormed part rest → Decodes rest units → Decodes (part ++ rest) (none :: units)

/-- A byte with which no encoding begins is ill formed by itself. -/
theorem illFormed_singleton {b : UInt8} (h : ¬ Begins [b]) (rest : List UInt8) :
    IllFormed [b] rest := by
  have hlonger : ∀ bytes, bytes <+: b :: rest → bytes ≠ [] → ¬ Begins bytes := by
    rintro bytes hbytes hne ⟨c, hc⟩
    obtain ⟨first, later, rfl⟩ := List.exists_cons_of_ne_nil hne
    obtain ⟨rfl, -⟩ := List.cons_prefix_cons.1 hbytes
    exact h ⟨c, List.IsPrefix.trans (List.prefix_append [first] later) hc⟩
  refine ⟨fun c hc => ?_, by simp, Or.inr rfl, fun longer hpre hlength => ?_⟩
  · exact hlonger _ hc (utf8EncodeChar_ne_nil c) ⟨c, List.prefix_rfl⟩
  · apply hlonger longer hpre
    rintro rfl
    simp at hlength

/-! ## inside a character -/

/-- The number `v` goes on from `value` with `n + 1` digits to the base 64, the first of which, in
its byte, lies between `low` and `high`. -/
def GoesOn (n value low high v : Nat) : Prop :=
  v / 64 ^ (n + 1) = value ∧ low ≤ v / 64 ^ n % 64 + 128 ∧ v / 64 ^ n % 64 + 128 ≤ high

/-- After the bytes in `part` the decoder is inside a character that needs `n + 1` more bytes. The
characters whose encoding begins with `part` are those whose numbers go on from `value`. -/
structure Opened (part : List UInt8) (n value low high : Nat) : Prop where
  ne_nil : part ≠ []
  bounds : 128 ≤ low ∧ low ≤ high ∧ high ≤ 191
  valid : ∀ v, GoesOn n value low high v → v.isValidChar
  encoded : ∀ c later, part ++ later = utf8EncodeChar c ↔
    GoesOn n value low high c.val.toNat ∧ later = lastDigits (n + 1) c.val.toNat

theorem toNat_ofNat_of_isValidChar {v : Nat} (h : v.isValidChar) :
    (Char.ofNat v).val.toNat = v := by
  rw [Char.ofNat, dif_pos h]
  rfl

theorem eq_ofNat_digit_iff {b : UInt8} {q : Nat} :
    b = UInt8.ofNat (q % 64 + 128) ↔ b.toNat = q % 64 + 128 := by
  rw [← UInt8.toNat_inj, UInt8.toNat_ofNat']
  omega

/-- There is always a way to go on. -/
theorem exists_goesOn {low high : Nat} (h : 128 ≤ low ∧ low ≤ high ∧ high ≤ 191) (n value : Nat) :
    ∃ v, GoesOn n value low high v := by
  have hpos : 0 < 64 ^ n := Nat.pow_pos (by decide)
  have hdigits : (value * 64 + (low - 128)) * 64 ^ n / 64 ^ n = value * 64 + (low - 128) :=
    Nat.mul_div_cancel _ hpos
  refine ⟨(value * 64 + (low - 128)) * 64 ^ n, ?_⟩
  unfold GoesOn
  rw [Nat.pow_succ, ← Nat.div_div_eq_div_mul, hdigits]
  omega

/-- Numbers that go on with a given byte go on from the value that this byte leads to. -/
theorem goesOn_and_digit_iff {n value low high v : Nat} {b : UInt8}
    (hb : low ≤ b.toNat ∧ b.toNat ≤ high) (hlow : 128 ≤ low) (hhigh : high ≤ 191) :
    GoesOn n value low high v ∧ b = UInt8.ofNat (v / 64 ^ n % 64 + 128) ↔
      v / 64 ^ n = value * 64 + (b.toNat - 128) := by
  unfold GoesOn
  rw [eq_ofNat_digit_iff, Nat.pow_succ, ← Nat.div_div_eq_div_mul]
  generalize v / 64 ^ n = q
  omega

namespace Opened

variable {part : List UInt8} {n value low high : Nat}

theorem begins (h : Opened part n value low high) : Begins part := by
  obtain ⟨v, hv⟩ := exists_goesOn h.bounds n value
  have hchar := toNat_ofNat_of_isValidChar (h.valid v hv)
  have hencoded := (h.encoded (Char.ofNat v) _).2 ⟨by rwa [hchar], rfl⟩
  exact ⟨Char.ofNat v, _, hencoded⟩

theorem ne_encoding (h : Opened part n value low high) (c : Char) : part ≠ utf8EncodeChar c := by
  intro heq
  obtain ⟨-, hnone⟩ := (h.encoded c []).1 (by rw [List.append_nil, heq])
  cases hnone

/-- What comes next in an encoding that begins with `part`. -/
theorem next (h : Opened part n value low high) {b : UInt8} {later : List UInt8} {c : Char}
    (hc : part ++ b :: later = utf8EncodeChar c) : low ≤ b.toNat ∧ b.toNat ≤ high := by
  obtain ⟨⟨-, hlow, hhigh⟩, hdigits⟩ := (h.encoded c _).1 hc
  have hb := eq_ofNat_digit_iff.1 (List.cons.inj hdigits).1
  omega

/-- A part that cannot go on is ill formed, and as long as it can be. -/
theorem illFormed (h : Opened part n value low high) {rest : List UInt8}
    (hstop : ∀ b ∈ rest.head?, ¬ (low ≤ b.toNat ∧ b.toNat ≤ high)) : IllFormed part rest := by
  have hmaximal : ∀ longer, longer <+: part ++ rest → part.length < longer.length →
      ¬ Begins longer := by
    rintro longer hpre hlength ⟨c, after, hc⟩
    obtain ⟨more, rfl⟩ := List.prefix_of_prefix_length_le (List.prefix_append part rest) hpre
      (Nat.le_of_lt hlength)
    cases more with
    | nil => simp at hlength
    | cons b more =>
      obtain ⟨after', rfl⟩ := (List.prefix_append_right_inj part).1 hpre
      have hnext : part ++ b :: (more ++ after) = utf8EncodeChar c := by
        rw [← hc, List.append_assoc, List.cons_append]
      exact hstop b (by simp) (h.next hnext)
  refine ⟨fun c hc => ?_, h.ne_nil, Or.inl h.begins, hmaximal⟩
  by_cases hlength : part.length < (utf8EncodeChar c).length
  · exact hmaximal _ hc hlength ⟨c, List.prefix_rfl⟩
  · -- a character within `part` would have to be all of it
    obtain ⟨d, hd⟩ := h.begins
    have hshort : utf8EncodeChar c <+: part :=
      List.prefix_of_prefix_length_le hc (List.prefix_append part rest) (by omega)
    obtain rfl := encoding_prefix_inj (hshort.trans hd)
    exact h.ne_encoding c (hd.eq_of_length_le hshort.length_le)

/-- One more byte that is not the last. -/
theorem step (h : Opened part (n + 1) value low high) {b : UInt8}
    (hb : low ≤ b.toNat ∧ b.toNat ≤ high) :
    Opened (part ++ [b]) n (value * 64 + (b.toNat - 128)) 128 191 := by
  obtain ⟨hlow, -, hhigh⟩ := h.bounds
  have hgoes : ∀ v, GoesOn n (value * 64 + (b.toNat - 128)) 128 191 v ↔
      GoesOn (n + 1) value low high v ∧ b = UInt8.ofNat (v / 64 ^ (n + 1) % 64 + 128) := by
    intro v
    rw [goesOn_and_digit_iff hb hlow hhigh]
    unfold GoesOn
    omega
  refine ⟨by simp, by omega, fun v hv => h.valid v ((hgoes v).1 hv).1, fun c later => ?_⟩
  rw [List.append_assoc, List.singleton_append, h.encoded, lastDigits, List.cons.injEq, hgoes,
    and_assoc]

/-- The last byte of a character. -/
theorem close (h : Opened part 0 value low high) {b : UInt8}
    (hb : low ≤ b.toNat ∧ b.toNat ≤ high) :
    utf8EncodeChar (Char.ofNat (value * 64 + (b.toNat - 128))) = part ++ [b] := by
  obtain ⟨hlow, -, hhigh⟩ := h.bounds
  have hwhole : (value * 64 + (b.toNat - 128)) / 64 ^ 0 = value * 64 + (b.toNat - 128) :=
    Nat.div_one _
  obtain ⟨hgoes, hdigit⟩ := (goesOn_and_digit_iff hb hlow hhigh).2 hwhole
  have hchar := toNat_ofNat_of_isValidChar (h.valid _ hgoes)
  symm
  rw [h.encoded, hchar]
  exact ⟨hgoes, by rw [lastDigits, lastDigits, ← hdigit]⟩

end Opened

/-! ## the first byte of a character -/

/-- A byte opens a character if the numbers that go on from its value are those that are encoded
with this byte in front. -/
theorem opened_singleton {b : UInt8} {n mark value low high : Nat}
    (hbounds : 128 ≤ low ∧ low ≤ high ∧ high ≤ 191) (hb : b.toNat = mark + value)
    (hgoes : ∀ v, GoesOn n value low high v ↔
      v.isValidChar ∧ Encoded v (n + 1) mark ∧ v / 64 ^ (n + 1) = value) :
    Opened [b] n value low high := by
  refine ⟨by simp, hbounds, fun v hv => ((hgoes v).1 hv).1, fun c later => ?_⟩
  obtain ⟨k, mark', hencoded, hbytes⟩ := exists_encoded c
  rw [hbytes, List.singleton_append, List.cons.injEq, ← UInt8.toNat_inj, toNat_first hencoded, hb]
  constructor
  · rintro ⟨hfirst, rfl⟩
    -- some number goes on from the value, and it has the same first byte
    obtain ⟨w, hw⟩ := exists_goesOn hbounds n value
    obtain ⟨-, hwencoded, hwvalue⟩ := (hgoes w).1 hw
    obtain ⟨rfl, rfl⟩ := hencoded.of_first_eq hwencoded (by omega)
    exact ⟨(hgoes _).2 ⟨c.valid, hencoded, by omega⟩, rfl⟩
  · rintro ⟨hgo, rfl⟩
    obtain ⟨-, hencoded', hvalue⟩ := (hgoes _).1 hgo
    obtain ⟨rfl, rfl⟩ := hencoded.unique hencoded'
    exact ⟨by omega, rfl⟩

theorem encoding_of_lt {b : UInt8} (h : b.toNat < 0x80) :
    utf8EncodeChar (Char.ofNat b.toNat) = [b] := by
  obtain ⟨k, mark, hencoded, hbytes⟩ := exists_encoded (Char.ofNat b.toNat)
  have hchar : (Char.ofNat b.toNat).val.toNat = b.toNat :=
    toNat_ofNat_of_isValidChar (Or.inl (by omega))
  rw [hchar] at hencoded hbytes
  obtain ⟨rfl, rfl⟩ := hencoded.unique (Or.inl ⟨rfl, rfl, h⟩)
  simpa [lastDigits] using hbytes

theorem not_begins_singleton {b : UInt8} (h : 0x80 ≤ b.toNat ∧ b.toNat < 0xC2 ∨ 0xF5 ≤ b.toNat) :
    ¬ Begins [b] := by
  rintro ⟨c, later, hc⟩
  obtain ⟨k, mark, hencoded, hbytes⟩ := exists_encoded c
  rw [hbytes, List.singleton_append, List.cons.injEq, ← UInt8.toNat_inj, toNat_first hencoded] at hc
  generalize c.val.toNat = v at hencoded hc
  rcases hencoded with ⟨rfl, rfl, hv⟩ | ⟨rfl, rfl, hv⟩ | ⟨rfl, rfl, hv⟩ | ⟨rfl, rfl, hv⟩ <;>
    simp at hc <;> omega

theorem opened_two {b : UInt8} (h : 0xC2 ≤ b.toNat ∧ b.toNat < 0xE0) :
    Opened [b] 0 (b.toNat - 0xC0) 0x80 0xBF := by
  refine opened_singleton (by decide) (show b.toNat = 192 + _ by omega) fun v => ?_
  have hsize : Encoded v 1 192 ↔ 128 ≤ v ∧ v < 2048 := by simp [Encoded]
  simp only [GoesOn, Nat.isValidChar, Nat.reduceAdd, Nat.reducePow, Nat.div_one, hsize]
  omega

/-- Where a shorter encoding would do, and where a surrogate would come out, the second byte is
bounded more closely. -/
theorem opened_three {b : UInt8} (h : 0xE0 ≤ b.toNat ∧ b.toNat < 0xF0) :
    Opened [b] 1 (b.toNat - 0xE0) (if b.toNat = 0xE0 then 0xA0 else 0x80)
      (if b.toNat = 0xED then 0x9F else 0xBF) := by
  refine opened_singleton (by split <;> split <;> omega) (show b.toNat = 224 + _ by omega)
    fun v => ?_
  have hsize : Encoded v 2 224 ↔ 2048 ≤ v ∧ v < 65536 := by simp [Encoded]
  simp only [GoesOn, Nat.isValidChar, Nat.reduceAdd, Nat.reducePow, hsize]
  generalize hq : v / 64 = q
  split <;> split <;> omega

/-- The second byte is bounded more closely where a shorter encoding would do and at the last code
point. -/
theorem opened_four {b : UInt8} (h : 0xF0 ≤ b.toNat ∧ b.toNat < 0xF5) :
    Opened [b] 2 (b.toNat - 0xF0) (if b.toNat = 0xF0 then 0x90 else 0x80)
      (if b.toNat = 0xF4 then 0x8F else 0xBF) := by
  refine opened_singleton (by split <;> split <;> omega) (show b.toNat = 240 + _ by omega)
    fun v => ?_
  have hsize : Encoded v 3 240 ↔ 65536 ≤ v ∧ v < 1114112 := by simp [Encoded]
  simp only [GoesOn, Nat.isValidChar, Nat.reduceAdd, Nat.reducePow, hsize]
  generalize hq : v / 4096 = q
  split <;> split <;> omega

/-- A first byte is a character by itself, or begins none, or leaves the decoder inside one. -/
theorem lead_cases (b : UInt8) :
    (∃ c, lead b.toNat = ([some c], .start) ∧ utf8EncodeChar c = [b]) ∨
      (lead b.toNat = ([none], .start) ∧ ¬ Begins [b]) ∨
      ∃ n value low high, lead b.toNat = ([], .inside (n + 1) value low high) ∧
        Opened [b] n value low high := by
  unfold lead
  split
  · rename_i h80
    exact Or.inl ⟨_, rfl, encoding_of_lt h80⟩
  split
  · exact Or.inr (Or.inl ⟨rfl, not_begins_singleton (by omega)⟩)
  split
  · exact Or.inr (Or.inr ⟨_, _, _, _, rfl, opened_two (by omega)⟩)
  split
  · exact Or.inr (Or.inr ⟨_, _, _, _, rfl, opened_three (by omega)⟩)
  split
  · exact Or.inr (Or.inr ⟨_, _, _, _, rfl, opened_four (by omega)⟩)
  · exact Or.inr (Or.inl ⟨rfl, not_begins_singleton (by omega)⟩)

/-! ## the decoder -/

/-- Where the decoder stands after the bytes in `part`, of which it has shown nothing so far. -/
def Stands (part : List UInt8) : Place → Prop
  | .start => part = []
  | .inside more value low high => ∃ n, more = n + 1 ∧ Opened part n value low high

/-- One byte at the start of a character, and the bytes after it. -/
theorem decodes_lead {b : UInt8} {bytes : List UInt8}
    (h : ∀ part place, Stands part place → Decodes (part ++ bytes) (decodeFrom place bytes)) :
    Decodes (b :: bytes) (decodeFrom .start (b :: bytes)) := by
  have hrest : Decodes bytes (decodeFrom .start bytes) := h [] .start rfl
  rcases lead_cases b with
      ⟨c, hlead, hc⟩ | ⟨hlead, hnone⟩ | ⟨n, value, low, high, hlead, hopened⟩ <;>
    simp only [decodeFrom, step, hlead, List.cons_append, List.nil_append]
  · have hchar := Decodes.char c hrest
    rwa [hc] at hchar
  · exact Decodes.illFormed (illFormed_singleton hnone bytes) hrest
  · exact h [b] _ ⟨n, rfl, hopened⟩

/-- The decoder shows what it has read so far and all that follows. -/
theorem decodes_decodeFrom (bytes : List UInt8) (part : List UInt8) (place : Place)
    (h : Stands part place) : Decodes (part ++ bytes) (decodeFrom place bytes) := by
  induction bytes generalizing part place with
  | nil =>
    cases place with
    | start =>
      rw [show part = [] from h]
      exact Decodes.nil
    | inside more value low high =>
      obtain ⟨n, rfl, hopened⟩ := h
      exact Decodes.illFormed (hopened.illFormed (by simp)) Decodes.nil
  | cons b bytes ih =>
    have hlead : Decodes (b :: bytes) (decodeFrom .start (b :: bytes)) := decodes_lead ih
    cases place with
    | start =>
      rw [show part = [] from h]
      exact hlead
    | inside more value low high =>
      obtain ⟨n, rfl, hopened⟩ := h
      by_cases hb : low ≤ b.toNat ∧ b.toNat ≤ high
      · cases n with
        | zero =>
          have hchar := Decodes.char (Char.ofNat (value * 64 + (b.toNat - 128))) (ih [] .start rfl)
          rw [hopened.close hb] at hchar
          simpa [decodeFrom, step, hb] using hchar
        | succ n =>
          have hmore := ih (part ++ [b]) (.inside (n + 1) _ 0x80 0xBF) ⟨n, rfl, hopened.step hb⟩
          simpa [decodeFrom, step, hb] using hmore
      · -- the byte is read again as the first one of what follows
        have hpart : IllFormed part (b :: bytes) := hopened.illFormed (by simpa using hb)
        simpa [decodeFrom, step, hb] using Decodes.illFormed hpart hlead

/-- **Each ill-formed part is one unit.**  The bytes are encoded characters and maximal ill-formed
parts, and the decoder shows them one by one. -/
theorem decodes_decodeUnits (bytes : List UInt8) : Decodes bytes (decodeUnits bytes) :=
  decodes_decodeFrom bytes [] .start rfl

/-! ## texts -/

/-- An encoded character in front is shown as such. -/
theorem Decodes.of_char_append {c : Char} {rest : List UInt8} {units : List (Option Char)}
    (h : Decodes (utf8EncodeChar c ++ rest) units) :
    ∃ later, units = some c :: later ∧ Decodes rest later := by
  generalize hbytes : utf8EncodeChar c ++ rest = bytes at h
  cases h with
  | nil => exact absurd (List.append_eq_nil_iff.1 hbytes).1 (utf8EncodeChar_ne_nil c)
  | char d hrest =>
    have hbegin : utf8EncodeChar c <+: utf8EncodeChar d ++ _ := ⟨rest, hbytes⟩
    have hsame : c = d := by
      rcases List.prefix_or_prefix_of_prefix hbegin (List.prefix_append _ _) with h | h
      · exact encoding_prefix_inj h
      · exact (encoding_prefix_inj h).symm
    subst hsame
    exact ⟨_, rfl, List.append_cancel_left hbytes ▸ hrest⟩
  | illFormed hpart _ => exact absurd ⟨rest, hbytes⟩ (hpart.no_char c)

theorem Decodes.eq_map_some {cs : List Char} {units : List (Option Char)}
    (h : Decodes (cs.flatMap utf8EncodeChar) units) : units = cs.map some := by
  induction cs generalizing units with
  | nil =>
    generalize hbytes : [].flatMap utf8EncodeChar = bytes at h
    cases h with
    | nil => rfl
    | char d _ => exact absurd (List.append_eq_nil_iff.1 hbytes.symm).1 (utf8EncodeChar_ne_nil d)
    | illFormed hpart _ => exact absurd (List.append_eq_nil_iff.1 hbytes.symm).1 hpart.ne_nil
  | cons c cs ih =>
    rw [List.flatMap_cons] at h
    obtain ⟨later, rfl, hlater⟩ := h.of_char_append
    rw [ih hlater, List.map_cons]

theorem Decodes.eq_flatMap {bytes : List UInt8} {units : List (Option Char)}
    (h : Decodes bytes units) {cs : List Char} (hcs : units = cs.map some) :
    bytes = cs.flatMap utf8EncodeChar := by
  induction h generalizing cs with
  | nil =>
    rw [List.map_eq_nil_iff.1 hcs.symm]
    rfl
  | char c _ ih =>
    obtain ⟨d, ds, rfl, hd, hds⟩ := List.map_eq_cons_iff.1 hcs.symm
    rw [ih hds.symm, List.flatMap_cons, Option.some.inj hd]
  | illFormed _ _ _ =>
    obtain ⟨d, ds, rfl, hd, hds⟩ := List.map_eq_cons_iff.1 hcs.symm
    cases hd

/-- The bytes of a text are shown as its characters, and no other bytes are. -/
theorem decodeUnits_eq_map_some_iff {bs : List UInt8} {s : String} :
    decodeUnits bs = s.toList.map some ↔ bs = bytes s := by
  constructor
  · intro h
    rw [bytes_eq_flatMap]
    exact (decodes_decodeUnits bs).eq_flatMap h
  · rintro rfl
    have h := decodes_decodeUnits (bytes s)
    rw [bytes_eq_flatMap] at h ⊢
    exact h.eq_map_some

@[simp] theorem decodeLossy_bytes (s : String) : decodeLossy (bytes s) = s := by
  rw [decodeLossy, decodeUnits_eq_map_some_iff.2 rfl, List.map_map]
  simp [Function.comp_def]

theorem mapM_id_eq_some_iff {units : List (Option Char)} {cs : List Char} :
    units.mapM id = some cs ↔ units = cs.map some := by
  induction units generalizing cs with
  | nil => cases cs <;> simp
  | cons unit units ih =>
    cases unit with
    | none => cases cs <;> simp [List.mapM_cons]
    | some c =>
      have hcons : (some c :: units).mapM id = (units.mapM id).map (c :: ·) := by
        rw [List.mapM_cons]
        cases units.mapM id <;> rfl
      rw [hcons, Option.map_eq_some_iff]
      constructor
      · rintro ⟨ds, hds, rfl⟩
        rw [ih.1 hds, List.map_cons]
      · intro h
        obtain ⟨d, ds, rfl, hd, hds⟩ := List.map_eq_cons_iff.1 h.symm
        exact ⟨ds, ih.2 hds.symm, by rw [Option.some.inj hd]⟩

/-- Bytes are text if they are the bytes of one. -/
theorem decode?_eq_some_iff {bs : List UInt8} {s : String} :
    decode? bs = some s ↔ bs = bytes s := by
  rw [← decodeUnits_eq_map_some_iff, ← mapM_id_eq_some_iff, decode?, Option.map_eq_some_iff]
  constructor
  · rintro ⟨cs, hcs, rfl⟩
    rwa [String.toList_ofList]
  · intro h
    exact ⟨s.toList, h, String.ofList_toList⟩

@[simp] theorem decode?_bytes (s : String) : decode? (bytes s) = some s :=
  decode?_eq_some_iff.2 rfl

/-- Only where something is ill formed does a replacement character stand that was not there. -/
theorem eq_bytes_of_replacement_not_mem {bs : List UInt8}
    (h : replacement ∉ (decodeLossy bs).toList) : bs = bytes (decodeLossy bs) := by
  rw [decodeLossy, String.toList_ofList] at h
  rw [← decodeUnits_eq_map_some_iff, decodeLossy, String.toList_ofList, List.map_map]
  conv_lhs => rw [← List.map_id (decodeUnits bs)]
  refine List.map_congr_left fun unit hunit => ?_
  cases unit with
  | none => exact absurd (List.mem_map.2 ⟨none, hunit, rfl⟩) h
  | some c => rfl

/-! ## line feeds -/

theorem count_newline_utf8EncodeChar (c : Char) :
    (utf8EncodeChar c).count 10 = if c = '\n' then 1 else 0 := by
  by_cases h : c = '\n'
  · subst h
    rfl
  · rw [if_neg h]
    exact List.count_eq_zero.2 (newline_not_mem_utf8EncodeChar h)

/-- A line feed is a character wherever it stands. -/
theorem IllFormed.newline_not_mem {part rest : List UInt8} (h : IllFormed part rest) :
    10 ∉ part := by
  intro hmem
  have hpart : part = utf8EncodeChar '\n' := by
    rcases h.begins with ⟨c, hc⟩ | hlength
    · have hnewline : c = '\n' := by
        by_contra hne
        exact newline_not_mem_utf8EncodeChar hne (hc.subset hmem)
      subst hnewline
      exact hc.eq_of_length_le (List.length_pos_of_mem hmem)
    · obtain ⟨b, rfl⟩ := List.length_eq_one_iff.1 hlength
      rw [← List.mem_singleton.1 hmem]
      rfl
  exact h.no_char '\n' (hpart ▸ List.prefix_append part rest)

/-- The line feeds among the bytes are those among the characters. -/
theorem Decodes.count_newline {bytes : List UInt8} {units : List (Option Char)}
    (h : Decodes bytes units) : units.count (some '\n') = bytes.count 10 := by
  induction h with
  | nil => rfl
  | char c _ ih =>
    rw [List.count_append, count_newline_utf8EncodeChar, List.count_cons, ih]
    by_cases hc : c = '\n'
    · simp [hc, Nat.add_comm]
    · simp [hc]
  | illFormed hpart _ ih =>
    rw [List.count_append, List.count_eq_zero.2 hpart.newline_not_mem, List.count_cons, ih]
    simp

theorem count_newline_map_getD (units : List (Option Char)) :
    (units.map fun unit => unit.getD replacement).count '\n' = units.count (some '\n') := by
  induction units with
  | nil => rfl
  | cons unit units ih =>
    rw [List.map_cons, List.count_cons, List.count_cons, ih]
    cases unit with
    | none => simp [replacement]
    | some c => simp

/-- Whatever the bytes are, the lines of the text are as many as they have line feeds, and one. -/
theorem countLines_decodeLossy (bytes : List UInt8) :
    countLines (decodeLossy bytes) = bytes.count 10 + 1 := by
  rw [countLines, decodeLossy, String.toList_ofList, count_newline_map_getD,
    (decodes_decodeUnits bytes).count_newline]

end Utf8

end SourceAtlas.Text
