import Mathlib.Data.List.DropRight
import Mathlib.Data.List.TakeWhile
import SourceAtlas.Interpreter.Dump
import SourceAtlas.Proofs.Order
import SourceAtlas.Syntax.Tree

/-!
Lines and columns of byte offsets, and back.

* `Text.lineAt`, `Text.columnAt`: where an offset lies, said of the bytes of the text.
* `Text.lineStarts_eq`: the lines begin behind the bytes that are line feeds.
* `Text.line_lineStarts`, `Text.column_lineStarts`: line and column of an offset are found from the
  beginnings of the lines.
* `Text.start_add_column`: line and column give the offset back.
* `Interpreter.statementSpan_eq_spanOf`: a statement and a syntax node that cover the same bytes
  have the same span.
-/

namespace SourceAtlas

namespace Text

/-! ## line feeds among bytes -/

/-- The line of a byte offset, counted from one. -/
def lineAt (content : String) (offset : Nat) : Nat := ((bytes content).take offset).count 10 + 1

/-- The number of bytes between the last line feed before an offset, or the beginning, and the
offset. -/
def columnAt (content : String) (offset : Nat) : Nat :=
  (((bytes content).take offset).rtakeWhile (· != 10)).length

theorem le_of_mem_lastDigits {b : UInt8} {k v : Nat} (h : b ∈ lastDigits k v) : 128 ≤ b.toNat := by
  induction k with
  | zero => cases h
  | succ k ih =>
    rcases List.mem_cons.1 h with rfl | h
    · simp only [UInt8.toNat_ofNat']
      omega
    · exact ih h

/-- A byte below 128 is a character wherever it stands. -/
theorem toNat_eq_of_mem_utf8EncodeChar {c : Char} {b : UInt8} (hb : b.toNat < 128)
    (h : b ∈ String.utf8EncodeChar c) : c.val.toNat = b.toNat := by
  obtain ⟨k, mark, hencoded, hbytes⟩ := exists_encoded c
  rw [hbytes] at h
  rcases List.mem_cons.1 h with hfirst | hlater
  · have hvalue : b.toNat = (mark + c.val.toNat / 64 ^ k) % 256 := by
      simpa using congrArg UInt8.toNat hfirst
    rcases hencoded with ⟨rfl, rfl, hlt⟩ | ⟨rfl, rfl, hlt⟩ | ⟨rfl, rfl, hlt⟩ | ⟨rfl, rfl, hlt⟩ <;>
      omega
  · have hle := le_of_mem_lastDigits hlater
    omega

/-- The characters below 128 are found in a text by their bytes. -/
theorem mem_bytes_iff {c : Char} (hc : c.val.toNat < 128) {s : String} :
    UInt8.ofNat c.val.toNat ∈ bytes s ↔ c ∈ s.toList := by
  have hbyte : (UInt8.ofNat c.val.toNat).toNat = c.val.toNat := by
    rw [UInt8.toNat_ofNat']
    omega
  rw [bytes_eq_flatMap, List.mem_flatMap]
  constructor
  · rintro ⟨d, hd, hmem⟩
    have hsame := toNat_eq_of_mem_utf8EncodeChar (by omega) hmem
    rw [hbyte] at hsame
    rwa [← Char.ext (UInt32.toNat_inj.1 hsame)]
  · intro hmem
    obtain ⟨k, mark, hencoded, hbytes⟩ := exists_encoded c
    have hzero : k = 0 ∧ mark = 0 := by
      unfold Encoded at hencoded
      omega
    refine ⟨c, hmem, ?_⟩
    rw [hbytes, hzero.1, hzero.2]
    simp

theorem newline_not_mem_utf8EncodeChar {c : Char} (h : c ≠ '\n') :
    10 ∉ String.utf8EncodeChar c := by
  intro hmem
  have hvalue := toNat_eq_of_mem_utf8EncodeChar (by decide) hmem
  exact h (Char.ext (UInt32.toNat_inj.1 hvalue))

/-- The offsets behind the line feeds of a sequence of bytes that begins at `offset`. -/
def startsAfter (offset : Nat) : List UInt8 → List Nat
  | [] => []
  | b :: bs =>
    if b = 10 then (offset + 1) :: startsAfter (offset + 1) bs else startsAfter (offset + 1) bs

theorem startsAfter_append (offset : Nat) (as bs : List UInt8) :
    startsAfter offset (as ++ bs) =
      startsAfter offset as ++ startsAfter (offset + as.length) bs := by
  induction as generalizing offset with
  | nil => simp [startsAfter]
  | cons a as ih =>
    have hoffset : offset + 1 + as.length = offset + (a :: as).length := by
      rw [List.length_cons]
      omega
    simp only [List.cons_append, startsAfter, ih, hoffset]
    split <;> rfl

theorem startsAfter_eq_nil {offset : Nat} {bs : List UInt8} (h : 10 ∉ bs) :
    startsAfter offset bs = [] := by
  induction bs generalizing offset with
  | nil => rfl
  | cons b bs ih =>
    obtain ⟨hb, hbs⟩ : 10 ≠ b ∧ 10 ∉ bs := by simpa using h
    rw [startsAfter, if_neg (Ne.symm hb), ih hbs]

theorem lineStartsFrom_eq (offset : Nat) (cs : List Char) :
    lineStartsFrom offset cs = startsAfter offset (cs.flatMap String.utf8EncodeChar) := by
  induction cs generalizing offset with
  | nil => rfl
  | cons c cs ih =>
    rw [lineStartsFrom, List.flatMap_cons, startsAfter_append, ih, String.length_utf8EncodeChar]
    split
    · rename_i hc
      subst hc
      rfl
    · rename_i hc
      rw [startsAfter_eq_nil (newline_not_mem_utf8EncodeChar hc)]
      rfl

theorem lineStarts_eq (content : String) :
    lineStarts content = 0 :: startsAfter 0 (bytes content) := by
  rw [lineStarts, lineStartsFrom_eq, bytes_eq_flatMap]

/-! ## the beginnings of the lines -/

theorem length_startsAfter (offset : Nat) (bs : List UInt8) :
    (startsAfter offset bs).length = bs.count 10 := by
  induction bs generalizing offset with
  | nil => rfl
  | cons b bs ih =>
    rw [startsAfter, List.count_cons]
    split <;> simp_all

theorem lt_of_mem_startsAfter {offset start : Nat} {bs : List UInt8}
    (h : start ∈ startsAfter offset bs) : offset < start := by
  induction bs generalizing offset with
  | nil => cases h
  | cons b bs ih =>
    rw [startsAfter] at h
    split at h
    · rcases List.mem_cons.1 h with rfl | h
      · exact Nat.lt_succ_self _
      · exact Nat.lt_of_succ_lt (ih h)
    · exact Nat.lt_of_succ_lt (ih h)

theorem pairwise_startsAfter (offset : Nat) (bs : List UInt8) :
    (startsAfter offset bs).Pairwise (· < ·) := by
  induction bs generalizing offset with
  | nil => exact List.Pairwise.nil
  | cons b bs ih =>
    rw [startsAfter]
    split
    · exact List.pairwise_cons.2 ⟨fun start h => lt_of_mem_startsAfter h, ih _⟩
    · exact ih _

theorem pairwise_lineStarts (content : String) : (lineStarts content).Pairwise (· < ·) := by
  rw [lineStarts_eq]
  exact List.pairwise_cons.2
    ⟨fun start h => lt_of_mem_startsAfter h, pairwise_startsAfter 0 (bytes content)⟩

theorem length_lineStartsFrom (offset : Nat) (cs : List Char) :
    (lineStartsFrom offset cs).length = cs.count '\n' := by
  induction cs generalizing offset with
  | nil => rfl
  | cons c cs ih =>
    rw [lineStartsFrom, List.count_cons]
    split <;> simp_all

theorem length_lineStarts (content : String) :
    (lineStarts content).length = countLines content := by
  rw [lineStarts, List.length_cons, length_lineStartsFrom, countLines]

/-- The lines that begin up to an offset begin behind the line feeds before it. -/
theorem takeWhile_startsAfter (offset n : Nat) (bs : List UInt8) :
    (startsAfter offset bs).takeWhile (· ≤ offset + n) = startsAfter offset (bs.take n) := by
  induction bs generalizing offset n with
  | nil => simp [startsAfter]
  | cons b bs ih =>
    cases n with
    | zero =>
      rw [List.take_zero, startsAfter, List.takeWhile_eq_nil_iff]
      intro hpos
      have hlater := lt_of_mem_startsAfter (List.getElem_mem hpos)
      simpa using hlater
    | succ n =>
      have hsum : offset + (n + 1) = offset + 1 + n := by omega
      rw [List.take_succ_cons, startsAfter, startsAfter, hsum, ← ih]
      split
      · rw [List.takeWhile_cons, if_pos (by simp)]
      · rfl

/-- The last line begins where the bytes since the last line feed begin. -/
theorem getLast_startsAfter (bs : List UInt8) :
    (0 :: startsAfter 0 bs).getLast?.getD 0 + (bs.rtakeWhile (· != 10)).length = bs.length := by
  induction bs using List.reverseRecOn with
  | nil => rfl
  | append_singleton bs b ih =>
    rw [startsAfter_append, ← List.cons_append, List.rtakeWhile_concat, List.length_append]
    by_cases hb : b = 10
    · have hlast : startsAfter (0 + bs.length) [b] = [bs.length + 1] := by simp [startsAfter, hb]
      rw [hlast, List.getLast?_concat, if_neg (by simp [hb])]
      rfl
    · have hnone : startsAfter (0 + bs.length) [b] = [] := by simp [startsAfter, hb]
      rw [hnone, List.append_nil, if_pos (by simp [hb]), List.length_append]
      omega

/-! ## from offsets to lines and back -/

theorem takeWhile_lineStarts (content : String) (offset : Nat) :
    (lineStarts content).takeWhile (· ≤ offset) =
      0 :: startsAfter 0 ((bytes content).take offset) := by
  have hrest := takeWhile_startsAfter 0 offset (bytes content)
  rw [Nat.zero_add] at hrest
  rw [lineStarts_eq, List.takeWhile_cons, if_pos (by simp), hrest]

/-- The line of an offset, whether the text goes that far or not. -/
theorem line_lineStarts (content : String) (offset : Nat) :
    (locate (lineStarts content) offset).1 + 1 = lineAt content offset := by
  rw [locate, takeWhile_lineStarts, List.length_cons, length_startsAfter]
  rfl

theorem length_bytes (content : String) : (bytes content).length = content.utf8ByteSize := rfl

theorem column_lineStarts {content : String} {offset : Nat} (h : offset ≤ content.utf8ByteSize) :
    (locate (lineStarts content) offset).2 = columnAt content offset := by
  have hlast := getLast_startsAfter ((bytes content).take offset)
  rw [List.length_take, length_bytes, Nat.min_eq_left h] at hlast
  rw [locate, takeWhile_lineStarts]
  simp only [columnAt]
  omega

/-- The beginning of a line and the column in it give the offset back. -/
theorem start_add_column {starts : List Nat} (h : starts.head? = some 0) (offset : Nat) :
    starts[(locate starts offset).1]?.getD 0 + (locate starts offset).2 = offset := by
  obtain ⟨later, rfl⟩ := List.head?_eq_some_iff.1 h
  obtain ⟨rest, hrest⟩ := List.takeWhile_prefix (l := 0 :: later) (· ≤ offset)
  have hle : ∀ start ∈ (0 :: later).takeWhile (· ≤ offset), start ≤ offset :=
    fun start hstart => by simpa using List.mem_takeWhile_imp hstart
  have hne : (0 :: later).takeWhile (· ≤ offset) ≠ [] := by simp
  simp only [locate]
  generalize (0 :: later).takeWhile (· ≤ offset) = upTo at hrest hle hne
  have hpos := List.length_pos_iff.2 hne
  have hlast : (0 :: later)[upTo.length - 1]? = some (upTo.getLast hne) := by
    rw [← hrest, List.getElem?_append_left (by omega), ← List.getLast?_eq_getElem?,
      List.getLast?_eq_some_getLast hne]
  have hbefore := hle _ (List.getLast_mem hne)
  rw [hlast, List.getLast?_eq_some_getLast hne]
  simp only [Option.getD_some]
  omega

end Text

/-! ## spans -/

/-- The span of the bytes between two offsets. -/
def Span.between (content : String) (start stop : Nat) : Span :=
  { startByte := start, endByte := stop
    startLine := Text.lineAt content start, startColumn := Text.columnAt content start
    endLine := Text.lineAt content stop, endColumn := Text.columnAt content stop }

theorem Syntax.Tree.spanOf_lineStarts {content : String} {label : Label}
    (hstart : label.startByte ≤ content.utf8ByteSize)
    (hstop : label.endByte ≤ content.utf8ByteSize) :
    spanOf (Text.lineStarts content) label =
      .between content label.startByte label.endByte := by
  simp only [spanOf, Span.between, Text.line_lineStarts, Text.column_lineStarts hstart,
    Text.column_lineStarts hstop]

namespace Interpreter

/-- A statement of a dump says that it lies between two offsets of a text. -/
structure LiesBetween (content : String) (start stop : Nat) (statement : Json) : Prop where
  startLine : statement.get? "lineno" = some (.natural (Text.lineAt content start))
  startColumn : statement.get? "col_offset" = some (.natural (Text.columnAt content start))
  endLine : statement.get? "end_lineno" = some (.natural (Text.lineAt content stop))
  endColumn : statement.get? "end_col_offset" = some (.natural (Text.columnAt content stop))

theorem offsetOf_lineAt {content : String} {offset : Nat} (h : offset ≤ content.utf8ByteSize)
    (hword : offset < offsetBound) :
    offsetOf (Text.lineStarts content) (Text.lineAt content offset) (Text.columnAt content offset) =
      .ok offset := by
  have hfirst : (Text.lineStarts content).head? = some 0 := rfl
  have hsum := Text.start_add_column hfirst offset
  rw [Text.column_lineStarts h] at hsum
  rw [offsetOf, ← Text.line_lineStarts, Nat.add_sub_cancel, hsum]
  exact if_pos hword

theorem statementSpan_of_liesBetween {content : String} {start stop : Nat} {statement : Json}
    (hstart : start ≤ content.utf8ByteSize) (hstop : stop ≤ content.utf8ByteSize)
    (hword : start < offsetBound ∧ stop < offsetBound)
    (h : LiesBetween content start stop statement) :
    statementSpan (Text.lineStarts content) statement = .ok (.between content start stop) := by
  have hnat : ∀ n, (Json.natural n).nat? = some n := fun n => rfl
  have hline : ∀ offset, max (Text.lineAt content offset) 1 = Text.lineAt content offset :=
    fun offset => Nat.max_eq_left (Nat.succ_pos _)
  simp only [statementSpan, extentOf, h.startLine, h.startColumn, h.endLine, h.endColumn,
    Option.bind_some, hnat, Option.getD_some, hline, offsetOf_lineAt hstart hword.1,
    offsetOf_lineAt hstop hword.2]
  rfl

/-- **A statement and a syntax node that cover the same bytes have the same span.**  The text may
hold characters of several bytes, and the offsets, which are words, may lie anywhere in it, its end
included.  The lines begin at increasing offsets, and there are as many as the text has lines. -/
theorem statementSpan_eq_spanOf (content : String) :
    (Text.lineStarts content).Pairwise (· < ·) ∧
    (Text.lineStarts content).length = Text.countLines content ∧
    ∀ (label : Syntax.Label) (statement : Json), label.startByte ≤ label.endByte →
      label.endByte ≤ content.utf8ByteSize → label.endByte < offsetBound →
      LiesBetween content label.startByte label.endByte statement →
      statementSpan (Text.lineStarts content) statement =
          .ok (Syntax.Tree.spanOf (Text.lineStarts content) label) ∧
        Syntax.Tree.spanOf (Text.lineStarts content) label =
          .between content label.startByte label.endByte := by
  refine ⟨Text.pairwise_lineStarts content, Text.length_lineStarts content, ?_⟩
  intro label statement hle hstop hword hlies
  have hspan := Syntax.Tree.spanOf_lineStarts (Nat.le_trans hle hstop) hstop
  refine ⟨?_, hspan⟩
  rw [hspan]
  exact statementSpan_of_liesBetween (Nat.le_trans hle hstop) hstop
    ⟨Nat.lt_of_le_of_lt hle hword, hword⟩ hlies

/-- An assignment in the third line, after an empty one, with two letters of two bytes each. -/
theorem statementSpan_eq_spanOf_accents :
    let content := "x = 1\n\né = ü\n"
    let label : Syntax.Label := { (default : Syntax.Label) with startByte := 7, endByte := 14 }
    let statement : Json := .obj [("type", .str "Assign"), ("lineno", .natural 3),
      ("col_offset", .natural 0), ("end_lineno", .natural 3), ("end_col_offset", .natural 7)]
    LiesBetween content 7 14 statement ∧
      statementSpan (Text.lineStarts content) statement =
        .ok (Syntax.Tree.spanOf (Text.lineStarts content) label) := by
  intro content label statement
  have hlies : LiesBetween content 7 14 statement := ⟨rfl, rfl, rfl, rfl⟩
  obtain ⟨-, -, h⟩ := statementSpan_eq_spanOf content
  exact ⟨hlies, (h label statement (by decide) (by decide) (by decide) hlies).1⟩

end Interpreter

end SourceAtlas
