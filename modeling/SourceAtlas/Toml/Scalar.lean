import SourceAtlas.Decimal.Nearest
import SourceAtlas.Json.Basic
import SourceAtlas.Text.Escape

/-!
The values of TOML that contain no others.

* `readString`: a text in one of the four kinds of quotes.
* `bareValue?`: a number, a truth value, or a date or time.
-/

namespace SourceAtlas.Toml

/-! ## texts -/

/-- A text with the two characters that may end a line made one. -/
def joinReturns : List Char → List Char
  | [] => []
  | '\r' :: '\n' :: rest => '\n' :: joinReturns rest
  | c :: rest => c :: joinReturns rest

/-- A text over several lines up to the three quotes that end it, and what follows. Up to two more
quotes belong to the text. -/
def upToThree (quote : Char) (escapes : Bool) : List Char → Option (List Char × List Char)
  | [] => none
  | c :: rest =>
    if c = quote ∧ rest.take 2 = [quote, quote] then
      let extra := ((rest.drop 2).takeWhile (· == quote)).take 2
      some (extra, rest.drop (2 + extra.length))
    else if escapes ∧ c = '\\' then
      match rest with
      | [] => none
      | d :: rest => (upToThree quote escapes rest).map fun found => (c :: d :: found.1, found.2)
    else (upToThree quote escapes rest).map fun found => (c :: found.1, found.2)

/-- A text without the end of a line at its beginning. -/
def afterLineEnd : List Char → List Char
  | '\n' :: rest => rest
  | '\r' :: '\n' :: rest => rest
  | cs => cs

/-- A text with escapes, after its opening quote. -/
def basicString (cs : List Char) : Option (String × List Char) :=
  match Text.upToQuote cs with
  | none => none
  | some (raw, rest) => (Text.unescape false raw).map fun text => (String.ofList text, rest)

/-- A text over several lines with escapes, after its opening quotes. -/
def longBasicString (cs : List Char) : Option (String × List Char) :=
  match upToThree '"' true (afterLineEnd cs) with
  | none => none
  | some (raw, rest) =>
    (Text.unescape true (joinReturns raw)).map fun text => (String.ofList text, rest)

/-- A text without escapes, after its opening quote. -/
def literalString (cs : List Char) : Option (String × List Char) :=
  let raw := cs.takeWhile (· != '\x27')
  match cs.dropWhile (· != '\x27') with
  | [] => none
  | _ :: rest =>
    if raw.all Text.Escape.isAllowed then some (String.ofList raw, rest) else none

/-- A text over several lines without escapes, after its opening quotes. -/
def longLiteralString (cs : List Char) : Option (String × List Char) :=
  match upToThree '\x27' false (afterLineEnd cs) with
  | none => none
  | some (raw, rest) =>
    let text := joinReturns raw
    if text.all fun c => Text.Escape.isAllowed c || c == '\n' then some (String.ofList text, rest)
    else none

/-- A text in quotes, if there are quotes. -/
def readString : List Char → Option (String × List Char)
  | '"' :: '"' :: '"' :: rest => longBasicString rest
  | '"' :: rest => basicString rest
  | '\x27' :: '\x27' :: '\x27' :: rest => longLiteralString rest
  | '\x27' :: rest => literalString rest
  | _ => none

/-! ## numbers -/

/-- Digits with single underscores between them, without the underscores. -/
def plainDigits? (isDigit : Char → Bool) : List Char → Option (List Char)
  | [] => none
  | [c] => if isDigit c then some [c] else none
  | c :: '_' :: rest =>
    if isDigit c then (plainDigits? isDigit rest).map (c :: ·) else none
  | c :: rest => if isDigit c then (plainDigits? isDigit rest).map (c :: ·) else none

/-- One more than the largest whole number. -/
def wholeBound : Nat := 0x8000000000000000

/-- A whole number in range. -/
def wholeValue? (n : Int) : Option Json :=
  if -(wholeBound : Int) ≤ n ∧ n < wholeBound then some (.int n) else none

/-- The value of digits of a base. -/
def basedValue? (base : Nat) (digits : List Char) : Option Json :=
  let valueOf (c : Char) : Nat := (Text.hexDigit? c).getD base
  (plainDigits? (fun c => valueOf c < base) digits).bind fun digits =>
    wholeValue? (digits.foldl (fun n c => n * base + valueOf c) 0 : Nat)

/-- Digits of a decimal number, without a needless zero in front. -/
def wholeDigits? (cs : List Char) : Option (List Char) :=
  (plainDigits? Char.isDigit cs).filter fun digits => digits.length == 1 || digits.head? != some '0'

/-- A whole decimal number. -/
def decimal? (cs : List Char) : Option Json :=
  let (negative, digits) := Decimal.sign cs
  (wholeDigits? digits).bind fun digits =>
    let n : Int := Decimal.ofDigits digits
    wholeValue? (if negative then -n else n)

def isExponentMark (c : Char) : Bool := c == 'e' || c == 'E'

/-- A decimal number with a fraction or an exponent. One that is too large is refused, unless it is
negative. -/
def fractional? (cs : List Char) : Option Json :=
  let (negative, unsigned) := Decimal.sign cs
  let mantissa := unsigned.takeWhile fun c => !isExponentMark c
  let exponent := unsigned.dropWhile fun c => !isExponentMark c
  let whole := mantissa.takeWhile (· != '.')
  let fraction := mantissa.dropWhile (· != '.')
  let marked : Option (List Char) := match exponent with
    | [] => some []
    | mark :: rest =>
      let digits := (Decimal.sign rest).2
      let signs := rest.take (rest.length - digits.length)
      (plainDigits? Char.isDigit digits).map fun digits => mark :: (signs ++ digits)
  let pointed : Option (List Char) := match fraction with
    | [] => some []
    | point :: digits => (plainDigits? Char.isDigit digits).map (point :: ·)
  match wholeDigits? whole, pointed, marked with
  | some whole, some pointed, some marked =>
    if pointed.isEmpty && marked.isEmpty then none
    else
      match Decimal.ofText? (whole ++ pointed ++ marked) with
      | some x => if x.isInf && !negative then none else some (.float (if negative then -x else x))
      | none => none
  | _, _, _ => none

/-- Infinity, or no number at all. -/
def special? (cs : List Char) : Option Json :=
  let (negative, name) := Decimal.sign cs
  let value : Option Float :=
    if name = ['i', 'n', 'f'] then some (1 / 0)
    else if name = ['n', 'a', 'n'] then some (0 / 0)
    else none
  value.map fun x => .float (if negative then -x else x)

/-! ## dates and times -/

/-- The number that exactly so many digits spell. -/
def fixed? (count : Nat) (cs : List Char) : Option Nat :=
  if cs.length = count ∧ cs.all Char.isDigit then some (Decimal.ofDigits cs) else none

def isLeap (year : Nat) : Bool := year % 4 == 0 && (year % 100 != 0 || year % 400 == 0)

def daysIn (year month : Nat) : Nat :=
  if month = 2 then if isLeap year then 29 else 28
  else if month = 4 ∨ month = 6 ∨ month = 9 ∨ month = 11 then 30
  else 31

/-- A date with its year, month and day. -/
def isDate (cs : List Char) : Bool :=
  match fixed? 4 (cs.take 4), cs.drop 4 with
  | some year, '-' :: m1 :: m2 :: '-' :: day =>
    match fixed? 2 [m1, m2], fixed? 2 day with
    | some month, some day =>
      1 ≤ month && month ≤ 12 && 1 ≤ day && day ≤ daysIn year month
    | _, _ => false
  | _, _ => false

/-- Hours and minutes. -/
def isClock : List Char → Bool
  | [h1, h2, ':', m1, m2] =>
    (fixed? 2 [h1, h2]).any (· ≤ 23) && (fixed? 2 [m1, m2]).any (· ≤ 59)
  | _ => false

/-- Hours, minutes and seconds, perhaps with a fraction. -/
def isTime (cs : List Char) : Bool :=
  isClock (cs.take 5) &&
    match cs.drop 5 with
    | ':' :: s1 :: s2 :: rest =>
      (fixed? 2 [s1, s2]).any (· ≤ 60) &&
        match rest with
        | [] => true
        | '.' :: digits => !digits.isEmpty && digits.all Char.isDigit
        | _ => false
    | _ => false

/-- A time, perhaps with its distance from universal time. -/
def isTimeAnywhere (cs : List Char) : Bool :=
  let time := cs.takeWhile fun c => c.isDigit || c == ':' || c == '.'
  isTime time &&
    match cs.drop time.length with
    | [] | ['Z'] | ['z'] => true
    | '+' :: clock | '-' :: clock => isClock clock
    | _ => false

/-- A date, a time, or both. -/
def isMoment (cs : List Char) : Bool :=
  isTime cs || isDate cs ||
    (isDate (cs.take 10) && (cs.drop 10).head?.any (fun c => c == 'T' || c == 't' || c == ' ') &&
      isTimeAnywhere (cs.drop 11))

/-- A date or time as a table of its own. -/
def momentValue (cs : List Char) : Json := .obj [("datetime", .str (String.ofList cs))]

/-! ## all of them -/

/-- The value that a word without quotes stands for. -/
def bareValue? (cs : List Char) : Option Json :=
  match cs with
  | ['t', 'r', 'u', 'e'] => some (.bool true)
  | ['f', 'a', 'l', 's', 'e'] => some (.bool false)
  | '0' :: 'x' :: digits => basedValue? 16 digits
  | '0' :: 'o' :: digits => basedValue? 8 digits
  | '0' :: 'b' :: digits => basedValue? 2 digits
  | _ =>
    if isMoment cs then some (momentValue cs)
    else ((decimal? cs).or (fractional? cs)).or (special? cs)

end SourceAtlas.Toml
