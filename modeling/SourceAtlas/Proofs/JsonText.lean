import Mathlib.Algebra.Group.Nat.Defs
import Mathlib.Algebra.Ring.Int.Defs
import Mathlib.Data.List.TakeWhile
import SourceAtlas.Json.Printer
import SourceAtlas.Proofs.JsonLexemes

/-!
JSON text that was printed, and what is read from it.

* `Json.Legible`: all numbers of a value are read as they are written.
* `Json.Spells`: a text that stands for some lexemes wherever it ends.
* `Json.spells_prettyAt`: a printed value stands for its lexemes.
* `Json.readWithin_pretty`: a printed value is read with its fields sorted, unless it is nested too
  deep.
-/

namespace SourceAtlas.Json

/-! ## numerals -/

namespace Numeral

theorem digits_of_forall {cs : List Char} (h : ∀ c ∈ cs, c.isDigit) :
    digits cs = (cs.map digit, []) := by
  rw [digits, List.takeWhile_eq_self_iff.2 h, List.dropWhile_eq_nil_iff.2 h]

theorem isDigit_or_mem_of_digits {cs rest : List Char} {ds : List Nat}
    (h : digits cs = (ds, rest)) : ∀ c ∈ cs, c.isDigit ∨ c ∈ rest := by
  intro c hc
  rw [digits, Prod.mk.injEq] at h
  rw [← List.takeWhile_append_dropWhile (p := Char.isDigit) (l := cs), List.mem_append] at hc
  rcases hc with hc | hc
  · exact Or.inl (List.mem_takeWhile_imp hc)
  · exact Or.inr (h.2 ▸ hc)

/-- Digits without a needless zero are read as a whole number. -/
theorem read_digits {cs : List Char} (h : ∀ c ∈ cs, c.isDigit) (hok : wholeOk (cs.map digit)) :
    read cs = some ⟨false, cs.map digit, none, none⟩ := by
  have hminus : ∀ rest, cs ≠ '-' :: rest := by
    rintro rest rfl
    exact absurd (h '-' List.mem_cons_self) (by decide)
  unfold read
  split
  rename_i negative rest heq
  split at heq
  · exact absurd rfl (hminus _)
  · cases heq
    simp [digits_of_forall h, hok, readFraction, readExponent]

theorem read_minus_digits {cs : List Char} (h : ∀ c ∈ cs, c.isDigit)
    (hok : wholeOk (cs.map digit)) :
    read ('-' :: cs) = some ⟨true, cs.map digit, none, none⟩ := by
  simp [read, digits_of_forall h, hok, readFraction, readExponent]

theorem le_foldl_digits (ds : List Nat) (n : Nat) : n ≤ ds.foldl (fun n d => n * 10 + d) n := by
  induction ds generalizing n with
  | nil => exact Nat.le_refl n
  | cons d ds ih =>
    have := ih (n * 10 + d)
    rw [List.foldl_cons]
    omega

/-- A number that fits into 64 bits takes up all its digits. -/
theorem absorb_of_lt {ds : List Nat} {n : Nat}
    (h : ds.foldl (fun n d => n * 10 + d) n < UInt64.size) :
    absorb n ds = (ds.foldl (fun n d => n * 10 + d) n, 0) := by
  induction ds generalizing n with
  | nil => rfl
  | cons d ds ih =>
    have hle := le_foldl_digits ds (n * 10 + d)
    rw [List.foldl_cons] at h ⊢
    rw [absorb, if_pos (Nat.lt_of_le_of_lt hle h), ih h]

theorem foldl_toDigits (n : Nat) :
    ((Nat.toDigits 10 n).map digit).foldl (fun n d => n * 10 + d) 0 = n := by
  have h : Nat.ofDigitChars 10 (Nat.toDigits 10 n) 0 = n := Nat.ofDigitChars_ten_toDigits
  rw [Nat.ofDigitChars_eq_foldl] at h
  simpa [List.foldl_map, digit, Nat.mul_comm] using h

theorem toDigits_head {n : Nat} (h : 0 < n) :
    ∃ d ds, Nat.toDigits 10 n = d :: ds ∧ digit d ≠ 0 := by
  have hone : ∀ n < 10, 0 < n → digit n.digitChar ≠ 0 := by decide
  induction n using Nat.strongRecOn with
  | ind n ih =>
    by_cases hlt : n < 10
    · exact ⟨n.digitChar, [], Nat.toDigits_of_lt_base hlt, hone n hlt h⟩
    · obtain ⟨d, ds, heq, hd⟩ := ih (n / 10) (by omega) (by omega)
      refine ⟨d, ds ++ [(n % 10).digitChar], ?_, hd⟩
      rw [Nat.toDigits_of_base_le (by decide) (by omega), heq, List.cons_append]

theorem wholeOk_toDigits (n : Nat) : wholeOk ((Nat.toDigits 10 n).map digit) := by
  rcases Nat.eq_zero_or_pos n with rfl | h
  · decide
  · obtain ⟨d, ds, heq, hd⟩ := toDigits_head h
    rw [heq]
    cases ds <;> simp [wholeOk, hd]

/-- A whole number of 64 bits is read as it is written. -/
theorem value_read_toString {n : Int} (hlow : -2 ^ 63 ≤ n) (hhigh : n < 2 ^ 64) :
    (read (toString n).toList).bind value = some (.int n) := by
  have hdigits (m : Nat) : ∀ c ∈ Nat.toDigits 10 m, c.isDigit := fun c hc =>
    Nat.isDigit_of_mem_toDigits (by decide) (by decide) hc
  have habsorb {m : Nat} (hm : m < 2 ^ 64) :
      absorb 0 ((Nat.toDigits 10 m).map digit) = (m, 0) := by
    rw [absorb_of_lt (by rw [foldl_toDigits]; exact hm), foldl_toDigits]
  cases n with
  | ofNat m =>
    have htext : (toString (Int.ofNat m)).toList = Nat.toDigits 10 m := by
      rw [Int.toString_eq_repr, Int.repr, Nat.repr_eq_ofList_toDigits, String.toList_ofList]
    have hm : m < 2 ^ 64 := by
      rw [Int.ofNat_eq_natCast] at hhigh
      omega
    rw [htext, read_digits (hdigits m) (wholeOk_toDigits m), Option.bind_some, value]
    simp [habsorb hm]
  | negSucc m =>
    have htext : (toString (Int.negSucc m)).toList = '-' :: Nat.toDigits 10 (m + 1) := by
      simp [Int.toString_eq_repr, Int.repr, Nat.repr_eq_ofList_toDigits]
    have hm : m + 1 ≤ 2 ^ 63 := by omega
    have hvalue : (Int.negSucc m : Int) = -((m + 1 : Nat) : Int) := rfl
    rw [htext, read_minus_digits (hdigits _) (wholeOk_toDigits _), Option.bind_some, value, hvalue]
    simp only [habsorb (m := m + 1) (by omega)]
    rw [if_pos (by simp), if_neg (by simp), if_pos (by simpa using hm)]

/-! ### the characters of a numeral -/

theorem inNumber_of_digits {cs rest : List Char} {ds : List Nat} (h : digits cs = (ds, rest))
    (hrest : ∀ c ∈ rest, inNumber c) : ∀ c ∈ cs, inNumber c := by
  intro c hc
  rcases isDigit_or_mem_of_digits h c hc with hc | hc
  · simp [inNumber, hc]
  · exact hrest c hc

theorem inNumber_of_readExponent {cs : List Char} {exponent : Option (Bool × List Nat)}
    (h : readExponent cs = some exponent) : ∀ c ∈ cs, inNumber c := by
  unfold readExponent at h
  split at h
  · simp
  · rename_i mark after
    split at h
    · rename_i hmark
      have hfirst : inNumber mark := by rcases hmark with rfl | rfl <;> rfl
      refine List.forall_mem_cons.2 ⟨hfirst, ?_⟩
      split at h
      rename_i negative rest hsign
      split at h
      · rename_i d ds hdigits
        have hall := inNumber_of_digits hdigits (by simp)
        split at hsign
        · cases hsign
          exact List.forall_mem_cons.2 ⟨rfl, hall⟩
        · cases hsign
          exact List.forall_mem_cons.2 ⟨rfl, hall⟩
        · cases hsign
          exact hall
      · contradiction
    · contradiction

theorem inNumber_of_readFraction {cs rest : List Char} {fraction : Option (List Nat)}
    (h : readFraction cs = some (fraction, rest)) (hrest : ∀ c ∈ rest, inNumber c) :
    ∀ c ∈ cs, inNumber c := by
  unfold readFraction at h
  split at h
  · split at h
    · contradiction
    · rename_i ds after hdigits
      cases h
      exact List.forall_mem_cons.2 ⟨rfl, inNumber_of_digits hdigits hrest⟩
  · cases h
    exact hrest

/-- A numeral begins with a digit or a minus sign, and all its characters may stand in a number. -/
theorem inNumber_of_read {cs : List Char} {n : Numeral} (h : read cs = some n) :
    ∃ c rest, cs = c :: rest ∧ (c = '-' ∨ c.isDigit) ∧ ∀ d ∈ rest, inNumber d := by
  unfold read at h
  split at h
  rename_i negative unsigned hsign
  split at h
  rename_i whole after hdigits
  split at h
  · rename_i hok
    split at h
    · contradiction
    · rename_i fraction rest hfraction
      obtain ⟨exponent, hexponent, -⟩ := Option.map_eq_some_iff.1 h
      have hall : ∀ c ∈ unsigned, inNumber c :=
        inNumber_of_digits hdigits
          (inNumber_of_readFraction hfraction (inNumber_of_readExponent hexponent))
      split at hsign
      · cases hsign
        exact ⟨'-', _, rfl, Or.inl rfl, hall⟩
      · cases hsign
        cases cs with
        | nil =>
          cases hdigits
          simp [wholeOk] at hok
        | cons c cs =>
          refine ⟨c, cs, rfl, Or.inr ?_, fun d hd => hall d (List.mem_cons_of_mem _ hd)⟩
          -- otherwise there would be no digits at all
          by_contra hc
          rw [digits, List.takeWhile_cons_of_neg hc] at hdigits
          cases hdigits
          simp [wholeOk] at hok
  · contradiction

end Numeral

/-! ## single lexemes -/

/-- The lexer goes from one mode to another and finds nothing on the way. -/
def Passes (mode : Mode) (cs : List Char) (next : Mode) : Prop :=
  ∀ rest, lexFrom mode (cs ++ rest) = lexFrom next rest

theorem passes_of_advance {mode next : Mode} {c : Char} (h : advance mode c = some ([], next)) :
    Passes mode [c] next := by
  intro rest
  simp [lexFrom, h]

theorem Passes.append {mode middle next : Mode} {cs ds : List Char} (h : Passes mode cs middle)
    (h' : Passes middle ds next) : Passes mode (cs ++ ds) next := by
  intro rest
  rw [List.append_assoc, h, h']

/-- Nothing, or a character that ends numbers and words. -/
def Stops : List Char → Prop
  | [] => True
  | c :: _ => inNumber c = false ∧ c.isAlpha = false

/-- A text that stands for some lexemes wherever it ends. -/
def Spells (cs : List Char) (found : List Lexeme) : Prop :=
  ∀ rest, Stops rest → lexFrom .between (cs ++ rest) = (lexFrom .between rest).map (found ++ ·)

theorem spells_nil : Spells [] [] := by
  intro rest _
  simp

/-- A blank, bracket or separator in front. -/
theorem Spells.cons {c : Char} {cs : List Char} {first found : List Lexeme}
    (hc : beginning c = some (first, .between)) (h : Spells cs found) :
    Spells (c :: cs) (first ++ found) := by
  intro rest hrest
  rw [List.cons_append, lexFrom, advance, hc]
  simp [h rest hrest, Function.comp_def]

theorem Spells.append {cs ds : List Char} {found more : List Lexeme} (h : Spells cs found)
    (h' : Spells ds more) (hstops : ∀ rest, Stops (ds ++ rest)) :
    Spells (cs ++ ds) (found ++ more) := by
  intro rest hrest
  rw [List.append_assoc, h _ (hstops rest), h' rest hrest]
  simp [Function.comp_def]

/-- The lexer leaves a number or word at the next character. -/
theorem lexFrom_of_close {mode : Mode} {lexeme : Lexeme} {rest : List Char}
    (hclose : close mode = some [lexeme])
    (hstop : ∀ c cs, rest = c :: cs → advance mode c = advance.afterToken mode c) :
    lexFrom mode rest = (lexFrom .between rest).map ([lexeme] ++ ·) := by
  cases rest with
  | nil =>
    rw [lexFrom, hclose]
    rfl
  | cons c cs =>
    rw [lexFrom, hstop c cs rfl, advance.afterToken, hclose, lexFrom, advance]
    cases hc : beginning c with
    | none => rfl
    | some found => simp [Function.comp_def]

theorem beginning_of_number {c : Char} (h : c = '-' ∨ c.isDigit) :
    beginning c = some ([], .number [c]) := by
  rcases h with rfl | h
  · rfl
  · have hne {d : Char} (hd : d.isDigit = false) : c ≠ d := by
      rintro rfl
      simp [h] at hd
    have hnat {n : Nat} (hn : (Char.ofNat n).isDigit = false) : c.toNat ≠ n := by
      rintro rfl
      simp [h] at hn
    simp [beginning, h, hne (d := ' ') rfl, hne (d := '\n') rfl, hne (d := '\t') rfl,
      hne (d := '\r') rfl, hne (d := '[') rfl, hne (d := ']') rfl, hne (d := ',') rfl,
      hne (d := ':') rfl, hne (d := '"') rfl, hnat (n := 0x7B) rfl, hnat (n := 0x7D) rfl]

section

variable (mode : List Char → Mode) {allowed : Char → Bool}

theorem passes_token
    (hmore : ∀ done c, allowed c → advance (mode done) c = some ([], mode (c :: done)))
    {cs done : List Char} (h : ∀ c ∈ cs, allowed c) :
    Passes (mode done) cs (mode (cs.reverse ++ done)) := by
  induction cs generalizing done with
  | nil =>
    intro rest
    rfl
  | cons c cs ih =>
    obtain ⟨hc, hcs⟩ := List.forall_mem_cons.1 h
    have hfirst : Passes (mode done) [c] (mode (c :: done)) := passes_of_advance (hmore done c hc)
    simpa using hfirst.append (ih hcs)

/-- A token goes on as long as its characters do. -/
theorem spells_token {c : Char} {cs : List Char} {v : Json}
    (hbegin : beginning c = some ([], mode [c]))
    (hmore : ∀ done c, allowed c → advance (mode done) c = some ([], mode (c :: done)))
    (hend : ∀ done c, allowed c = false →
      advance (mode done) c = advance.afterToken (mode done) c)
    (hstops : ∀ c rest, Stops (c :: rest) → allowed c = false) (hcs : ∀ d ∈ cs, allowed d)
    (hclose : close (mode (cs.reverse ++ [c])) = some [.value v]) :
    Spells (c :: cs) [.value v] := by
  have hfirst : Passes .between [c] (mode [c]) := passes_of_advance hbegin
  have hpasses := hfirst.append (passes_token mode hmore hcs)
  intro rest hrest
  rw [← List.singleton_append, hpasses]
  refine lexFrom_of_close hclose ?_
  rintro d ds rfl
  exact hend _ d (hstops d ds hrest)

end

/-- A numeral stands for its value. -/
theorem spells_number {cs : List Char} {v : Json}
    (h : (Numeral.read cs).bind Numeral.value = some v) : Spells cs [.value v] := by
  obtain ⟨n, hn, -⟩ := Option.bind_eq_some_iff.1 h
  obtain ⟨c, ds, rfl, hc, hds⟩ := Numeral.inNumber_of_read hn
  refine spells_token .number (beginning_of_number hc) ?_ ?_ (fun _ _ h => h.1) hds ?_
  · intro done d hd
    simp [advance, hd]
  · intro done d hd
    simp [advance, hd]
  · simp [close, h]

/-- A word stands for its value. -/
theorem spells_word {c : Char} {cs : List Char} {v : Json} (h : word? (c :: cs) = some v)
    (hc : beginning c = some ([], .word [c])) (hcs : ∀ d ∈ cs, d.isAlpha) :
    Spells (c :: cs) [.value v] := by
  refine spells_token .word hc ?_ ?_ (fun _ _ h => h.2) hcs ?_
  · intro done d hd
    simp [advance, hd]
  · intro done d hd
    simp [advance, hd]
  · simp [close, h]

/-! ### texts -/

theorem passes_escape (done : List Char) {mark c : Char} (h : escaped? mark = some c)
    (hmark : mark ≠ 'u') : Passes (.text done) ['\\', mark] (.text (c :: done)) := by
  have hbackslash : Passes (.text done) ['\\'] (.escape done) :=
    passes_of_advance (by simp [advance])
  have hafter : Passes (.escape done) [mark] (.text (c :: done)) :=
    passes_of_advance (by simp [advance, hmark, h])
  exact hbackslash.append hafter

theorem controlEscape_eq {c : Char} (h : c.toNat < 0x20) :
    controlEscape c =
      ['\\', 'u', '0', '0', (c.toNat / 16).digitChar, (c.toNat % 16).digitChar] := by
  have hall : ∀ n < 0x20, controlEscape (Char.ofNat n) =
      ['\\', 'u', '0', '0', (n / 16).digitChar, (n % 16).digitChar] := by decide
  simpa using hall c.toNat h

theorem hexDigit?_digitChar : ∀ n < 16, Text.hexDigit? n.digitChar = some n := by decide

/-- A control character is written by its number and read back from it. -/
theorem passes_controlEscape (done : List Char) {c : Char} (h : c.toNat < 0x20) :
    Passes (.text done) (controlEscape c) (.text (c :: done)) := by
  have hhigh := hexDigit?_digitChar (c.toNat / 16) (by omega)
  have hlow := hexDigit?_digitChar (c.toNat % 16) (by omega)
  have hzero : Text.hexDigit? '0' = some 0 := rfl
  have hvalue : c.toNat / 16 * 16 + c.toNat % 16 = c.toNat := by omega
  have hfinish : finishCode done none c.toNat = some (.text (c :: done)) := by
    have hsurrogate : isHigh c.toNat = false ∧ isLow c.toNat = false := by
      simp [isHigh, isLow]
      omega
    simp [finishCode, hsurrogate]
  rw [controlEscape_eq h]
  intro rest
  simp [lexFrom, advance, hzero, hhigh, hlow, hvalue, hfinish]

theorem passes_escapeChar (done : List Char) (c : Char) :
    Passes (.text done) (escapeChar c) (.text (c :: done)) := by
  unfold escapeChar
  split_ifs with hquote hbackslash h h h h h hcontrol
  · subst hquote
    exact passes_escape done rfl (by decide)
  · subst hbackslash
    exact passes_escape done rfl (by decide)
  iterate 5
    · subst h
      exact passes_escape done rfl (by decide)
  · exact passes_controlEscape done hcontrol
  · exact passes_of_advance (by simp [advance, hquote, hbackslash, hcontrol])

theorem passes_escaped (cs done : List Char) :
    Passes (.text done) (cs.flatMap escapeChar) (.text (cs.reverse ++ done)) := by
  induction cs generalizing done with
  | nil =>
    intro rest
    rfl
  | cons c cs ih => simpa using (passes_escapeChar done c).append (ih (c :: done))

/-- A written text stands for itself. -/
theorem spells_writeString (s : String) : Spells (writeString s).toList [.value (.str s)] := by
  have hopen : Passes .between ['"'] (.text []) := passes_of_advance rfl
  have hpasses := hopen.append (passes_escaped s.toList [])
  intro rest hrest
  have htext : (writeString s).toList ++ rest =
      (['"'] ++ s.toList.flatMap escapeChar) ++ ('"' :: rest) := by
    simp [writeString]
  rw [htext, hpasses, lexFrom]
  simp [advance]

/-! ## printed values -/

/-- All numbers are read as they are written: whole ones fit into 64 bits, and the others come
out the same. -/
def Legible (v : Json) : Prop :=
  v.Throughout fun
    | .int n => -2 ^ 63 ≤ n ∧ n < 2 ^ 64
    | .float x => (Numeral.read (writeFloat x).toList).bind Numeral.value = some (.float x)
    | _ => True

theorem legible_arr {items : List Json} : (arr items).Legible ↔ ∀ v ∈ items, v.Legible := by
  simp [Legible]

theorem legible_obj {fields : List (String × Json)} :
    (obj fields).Legible ↔ ∀ field ∈ fields, field.2.Legible := by
  simp [Legible]

theorem legible_null : null.Legible := by simp [Legible, Throughout]

theorem legible_bool (b : Bool) : (bool b).Legible := by simp [Legible, Throughout]

theorem legible_str (s : String) : (str s).Legible := by simp [Legible, Throughout]

theorem legible_natural {n : Nat} (h : n < 2 ^ 64) : (natural n).Legible := by
  simp only [natural, Legible, Throughout]
  omega

theorem legible_strings (texts : List String) : (strings texts).Legible := by
  simp [strings, legible_arr, legible_str]

theorem prettyItems_eq_map (level : Nat) (items : List Json) :
    prettyItems level items = items.map (prettyAt level) := by
  induction items with
  | nil => rfl
  | cons v items ih => rw [prettyItems, ih, List.map_cons]

theorem prettyFields_eq_map (level : Nat) (fields : List (String × Json)) :
    prettyFields level fields = fields.map (prettyField level) := by
  induction fields with
  | nil => rfl
  | cons field fields ih => rw [prettyFields, ih, List.map_cons]

theorem moreItems_eq_flatMap (items : List Json) :
    moreItems items = items.flatMap (fun v => .comma :: v.tokens) ++ [.closeArray] := by
  induction items with
  | nil => rfl
  | cons v items ih => simp [moreItems, ih]

theorem moreFields_eq_flatMap (fields : List (String × Json)) :
    moreFields fields =
      fields.flatMap (fun field => .comma :: tokensOfField field) ++ [.closeObject] := by
  induction fields with
  | nil => rfl
  | cons field fields ih => simp [moreFields, ih]

theorem toList_newline (level : Nat) :
    (newline level).toList = '\n' :: List.replicate (2 * level) ' ' := by
  rw [newline, String.toList_ofList]

theorem Spells.newline (level : Nat) {cs : List Char} {found : List Lexeme} (h : Spells cs found) :
    Spells ((newline level).toList ++ cs) found := by
  have hblanks (n : Nat) : Spells (List.replicate n ' ' ++ cs) found := by
    induction n with
    | zero => exact h
    | succ n ih => exact Spells.cons (c := ' ') rfl ih
  rw [toList_newline]
  exact Spells.cons (c := '\n') rfl (hblanks _)

/-- The lines of a block after the first, and its end. -/
def moreLines (level : Nat) (stop : Char) : List String → List Char
  | [] => (newline level).toList ++ [stop]
  | line :: lines =>
    ',' :: ((newline (level + 1)).toList ++ (line.toList ++ moreLines level stop lines))

theorem toList_block (level : Nat) {opening closing : String} {start stop : Char}
    (hopening : opening.toList = [start]) (hclosing : closing.toList = [stop]) (line : String)
    (lines : List String) :
    (block level opening closing (line :: lines)).toList =
      start :: ((newline (level + 1)).toList ++ (line.toList ++ moreLines level stop lines)) := by
  have hlines : (("," ++ newline (level + 1)).intercalate (line :: lines)).toList ++
      ((newline level).toList ++ [stop]) = line.toList ++ moreLines level stop lines := by
    induction lines generalizing line with
    | nil => simp [moreLines]
    | cons next lines ih =>
      rw [String.intercalate_cons_cons, moreLines, ← ih]
      simp only [String.toList_append, List.append_assoc]
      rfl
  rw [block, ← hlines]
  simp only [String.toList_append, hopening, hclosing, List.append_assoc, List.cons_append,
    List.nil_append]

theorem stops_moreLines (level : Nat) (stop : Char) (lines : List String) (rest : List Char) :
    Stops (moreLines level stop lines ++ rest) := by
  cases lines <;> simp [moreLines, toList_newline, Stops, inNumber]

section

variable {α : Type} {text : α → String} {found : α → List Lexeme} {stop : Char} {last : Lexeme}

theorem spells_moreLines (hstop : beginning stop = some ([last], .between)) (level : Nat)
    {xs : List α} (h : ∀ x ∈ xs, Spells (text x).toList (found x)) :
    Spells (moreLines level stop (xs.map text))
      (xs.flatMap (fun x => .comma :: found x) ++ [last]) := by
  induction xs with
  | nil => exact (Spells.cons hstop spells_nil).newline level
  | cons x xs ih =>
    obtain ⟨hx, hxs⟩ := List.forall_mem_cons.1 h
    have hline := (hx.append (ih hxs) (stops_moreLines _ _ _)).newline (level + 1)
    simpa [moreLines] using Spells.cons (c := ',') rfl hline

/-- A block stands for its brackets and for what its lines stand for, with commas between them. -/
theorem spells_block {start : Char} {first : Lexeme} {opening closing : String}
    (hopening : opening.toList = [start]) (hclosing : closing.toList = [stop])
    (hstart : beginning start = some ([first], .between))
    (hstop : beginning stop = some ([last], .between)) (level : Nat) {x : α} {xs : List α}
    (h : ∀ y ∈ x :: xs, Spells (text y).toList (found y)) :
    Spells (block level opening closing ((x :: xs).map text)).toList
      (first :: (found x ++ (xs.flatMap (fun y => .comma :: found y) ++ [last]))) := by
  obtain ⟨hx, hxs⟩ := List.forall_mem_cons.1 h
  have hlines := hx.append (spells_moreLines hstop level hxs) (stops_moreLines _ _ _)
  rw [List.map_cons, toList_block level hopening hclosing]
  exact Spells.cons hstart (hlines.newline (level + 1))

end

theorem spells_prettyField {level : Nat} {field : String × Json}
    (h : Spells (prettyAt level field.2).toList field.2.tokens) :
    Spells (prettyField level field).toList (tokensOfField field) := by
  obtain ⟨name, v⟩ := field
  have hvalue := Spells.cons (c := ':') rfl (Spells.cons (c := ' ') rfl h)
  have := (spells_writeString name).append hvalue (by simp [Stops, inNumber])
  simpa [prettyField, tokensOfField] using this

/-- A printed value stands for its lexemes. -/
theorem spells_prettyAt {v : Json} (h : v.Legible) (level : Nat) :
    Spells (prettyAt level v).toList v.tokens := by
  induction v using ind generalizing level with
  | null =>
    have hword : Spells ['n', 'u', 'l', 'l'] [.value .null] := spells_word rfl rfl (by simp)
    simpa [prettyAt, writeScalar, tokens] using hword
  | bool b =>
    have htrue : Spells ['t', 'r', 'u', 'e'] [.value (.bool true)] :=
      spells_word rfl rfl (by simp)
    have hfalse : Spells ['f', 'a', 'l', 's', 'e'] [.value (.bool false)] :=
      spells_word rfl rfl (by simp)
    cases b
    · simpa [prettyAt, writeScalar, tokens] using hfalse
    · simpa [prettyAt, writeScalar, tokens] using htrue
  | int n =>
    have hnumber := spells_number (Numeral.value_read_toString h.1 h.2)
    simpa [prettyAt, writeScalar, tokens] using hnumber
  | float x => simpa [prettyAt, writeScalar, tokens] using spells_number h
  | str s => simpa [prettyAt, writeScalar, tokens] using spells_writeString s
  | arr items ih =>
    cases items with
    | nil =>
      have hempty := Spells.cons (c := '[') rfl (Spells.cons (c := ']') rfl spells_nil)
      simpa [prettyAt, writeScalar, tokens] using hempty
    | cons v items =>
      rw [prettyAt, prettyItems_eq_map, tokens, moreItems_eq_flatMap]
      have hitems : ∀ w ∈ v :: items, Spells (prettyAt (level + 1) w).toList w.tokens :=
        fun w hw => ih w hw (legible_arr.1 h w hw) (level + 1)
      have hopening : "[".toList = ['['] := by simp
      have hclosing : "]".toList = [']'] := by simp
      exact spells_block hopening hclosing rfl rfl level hitems
  | obj fields ih =>
    cases fields with
    | nil =>
      have hempty := Spells.cons (c := '\x7b') rfl (Spells.cons (c := '\x7d') rfl spells_nil)
      simpa [prettyAt, writeScalar, tokens] using hempty
    | cons field fields =>
      rw [prettyAt, prettyFields_eq_map, tokens, moreFields_eq_flatMap]
      have hfields : ∀ other ∈ field :: fields,
          Spells (prettyField (level + 1) other).toList (tokensOfField other) :=
        fun other hother => spells_prettyField (ih other hother (legible_obj.1 h other hother) _)
      have hopening : "\x7b".toList = ['\x7b'] := by simp
      have hclosing : "\x7d".toList = ['\x7d'] := by simp
      exact spells_block hopening hclosing rfl rfl level hfields

/-- A printed value is read with its fields sorted, unless it is nested too deep. -/
theorem readWithin_pretty (limit : Nat) {v : Json} (h : v.Legible) :
    readWithin limit v.pretty = if v.nesting ≤ limit then some v.canonical else none := by
  have hlex : lexemes v.pretty.toList = some v.tokens := by
    have := spells_prettyAt h 0 [] trivial
    simpa [lexemes, pretty, lexFrom, close] using this
  have hrun := run_tokens limit v [] .value [] (Nat.zero_le _) (Or.inl rfl)
  rw [List.append_nil, List.length_nil, Nat.zero_add] at hrun
  rw [readWithin, hlex, Option.bind_some, hrun]
  split_ifs with hdeep <;> rfl

end SourceAtlas.Json
