import SourceAtlas.Path
import SourceAtlas.Pattern.Search

/-!
Globs: file name patterns with wildcards. They describe the bytes of a whole path.

* `Glob.Token`: the parts of a glob.
* `Glob.parse?`: the parts of a text, unless it is malformed.
* `Glob.program`: a search program for the paths that a glob describes.
* `Glob.accepts`: whether a glob describes a path.
-/

namespace SourceAtlas.Glob

inductive Token where
  | literal (c : Char)
  /-- One byte that is no slash. -/
  | any
  /-- Any number of bytes, none of them a slash. -/
  | star
  /-- Any number of directories at the beginning. -/
  | leadingDirectories
  /-- Everything below a directory. -/
  | everythingBelow
  /-- A slash, or any number of directories between two slashes. -/
  | innerDirectories
  | oneOf (negated : Bool) (ranges : List (Char × Char))
  | alternatives (branches : List (List Token))
deriving Inhabited

/-! ## reading -/

/-- The groups of alternatives that are open, the innermost first. Each one has the branches that
are complete, the latest first, and the tokens of the enclosing branch, the latest first. -/
structure Group where
  branches : List (List Token)
  outside : List Token

/-- What is known after a part of a glob has been read. -/
structure State where
  groups : List Group
  /-- The tokens of the branch that is being read, the latest first. -/
  tokens : List Token
  /-- The last character that was read. -/
  previous : Option Char
  /-- A class has been found that is never closed, so that `[` stands for itself from there on. -/
  openClass : Bool

namespace State

def push (s : State) (t : Token) : State := { s with tokens := t :: s.tokens }

/-- Reads past a character. -/
def past (s : State) (c : Char) : State := { s with previous := some c }

end State

/-- The rest of a class, after its opening. `first` holds before the first character, `ranged` after
a dash that may be the middle of a range. The ranges are kept with the latest first. The result is
`none` if a range runs backwards, and `some none` if the class is never closed. -/
def readClass (first ranged : Bool) (ranges : List (Char × Char)) :
    List Char → Option (Option (List (Char × Char) × List Char))
  | [] => some none
  | c :: rest =>
    if c = ']' ∧ !first then
      some (some ((if ranged then ('-', '-') :: ranges else ranges).reverse, rest))
    else if c = '-' ∧ !first ∧ !ranged then readClass false true ranges rest
    else
      match ranged, ranges with
      | true, (low, _) :: more =>
        if c < low then none else readClass false false ((low, c) :: more) rest
      | _, _ => readClass false false ((c, c) :: ranges) rest

def isNegation (c : Char) : Bool := c == '!' || c == '^'

/-- The tokens for two stars, given what precedes and follows them; `true` if the slash that follows
belongs to them. -/
def doubleStar (s : State) (rest : List Char) : State × Bool :=
  let plain := ((s.push .star).push .star, false)
  let atSlash := rest.head? = some '/'
  if s.tokens.isEmpty then
    if rest.isEmpty ∨ atSlash then (s.push .leadingDirectories, atSlash) else plain
  else if s.previous ≠ some '/' ∧
      (s.groups.isEmpty ∨ (s.previous ≠ some ',' ∧ s.previous ≠ some '{')) then plain
  else
    let inGroup := !s.groups.isEmpty
    let ends := rest.isEmpty ∨ (inGroup ∧ (rest.head? = some ',' ∨ rest.head? = some '}'))
    if ends ∨ atSlash then
      let token := match s.tokens.head? with
        | some .leadingDirectories => .leadingDirectories
        | some .everythingBelow => .everythingBelow
        | _ => if ends then .everythingBelow else .innerDirectories
      ({ s with tokens := token :: s.tokens.drop 1 }, atSlash)
    else plain

/-- Closes the innermost group of alternatives. -/
def closeGroup (s : State) : Option State :=
  match s.groups with
  | [] => none
  | group :: groups =>
    let branches := (s.tokens.reverse :: group.branches).reverse
    some { s with groups, tokens := .alternatives branches :: group.outside }

/-- Begins the next branch of the innermost group; outside of groups a comma stands for itself. -/
def nextBranch (s : State) : State :=
  match s.groups with
  | [] => s.push (.literal ',')
  | group :: groups =>
    { s with groups := { group with branches := s.tokens.reverse :: group.branches } :: groups,
             tokens := [] }

/-- Reads one part of a glob that begins with the character `c`. -/
def readPart (s : State) (c : Char) (rest : List Char) : Option (State × List Char) :=
  match c with
  | '?' => some ((s.push .any).past c, rest)
  | '*' =>
    match rest with
    | '*' :: rest =>
      let (s, slash) := doubleStar s rest
      if slash then some (s.past '/', rest.drop 1) else some (s.past '*', rest)
    | _ => some ((s.push .star).past c, rest)
  | '[' =>
    if s.openClass then some ((s.push (.literal c)).past c, rest)
    else
      let negated := rest.head?.any isNegation
      match readClass true false [] (if negated then rest.drop 1 else rest) with
      | none => none
      | some none => some ({ (s.push (.literal c)).past c with openClass := true }, rest)
      | some (some (ranges, rest)) => some ((s.push (.oneOf negated ranges)).past ']', rest)
  | '{' =>
    some ({ s with groups := ⟨[], s.tokens⟩ :: s.groups, tokens := [], previous := some c }, rest)
  | '}' => (closeGroup s).map fun s => (s.past c, rest)
  | ',' => some ((nextBranch s).past c, rest)
  | '\\' =>
    match rest with
    | [] => none
    | escaped :: rest => some ((s.push (.literal escaped)).past escaped, rest)
  | c => some ((s.push (.literal c)).past c, rest)

theorem readClass_length {first ranged : Bool} {ranges found : List (Char × Char)}
    {cs rest : List Char} (h : readClass first ranged ranges cs = some (some (found, rest))) :
    rest.length < cs.length := by
  induction cs generalizing first ranged ranges with
  | nil => simp [readClass] at h
  | cons c cs ih =>
    unfold readClass at h
    split at h
    · simp only [Option.some.injEq, Prod.mk.injEq] at h
      simp [← h.2]
    · split at h
      · exact Nat.lt_succ_of_lt (ih h)
      · split at h
        · split at h
          · cases h
          · exact Nat.lt_succ_of_lt (ih h)
        · exact Nat.lt_succ_of_lt (ih h)

/-- Every part takes at least its first character. -/
theorem readPart_length {s t : State} {c : Char} {cs rest : List Char}
    (h : readPart s c cs = some (t, rest)) : rest.length ≤ cs.length := by
  unfold readPart at h
  split at h
  · simp_all
  · split at h
    · dsimp only at h
      split at h <;> (cases h; simp)
      omega
    · simp_all
  · split at h
    · simp_all
    · dsimp only at h
      split at h
      · cases h
      · simp_all
      · rename_i hc
        have := readClass_length hc
        simp only [Option.some.injEq, Prod.mk.injEq] at h
        rw [← h.2]
        split at this
        · simp at this; omega
        · omega
  · simp_all
  · simp only [Option.map_eq_some_iff, Prod.mk.injEq] at h
    obtain ⟨_, _, _, rfl⟩ := h
    exact Nat.le_refl _
  · simp_all
  · split at h
    · cases h
    · simp only [Option.some.injEq, Prod.mk.injEq] at h
      simp [← h.2]
  · simp_all

/-- Reads the rest of a glob. -/
def readFrom (s : State) (cs : List Char) : Option State :=
  match cs with
  | [] => some s
  | c :: rest =>
    match h : readPart s c rest with
    | none => none
    | some (t, left) =>
      have := readPart_length h
      readFrom t left
termination_by cs.length

/-- The parts of a glob. Alternatives that are not closed, or closed without having been opened,
an escape at the very end and a range that runs backwards are malformed. -/
def parse? (cs : List Char) : Option (List Token) :=
  match readFrom ⟨[], [], none, false⟩ cs with
  | some s => if s.groups.isEmpty then some s.tokens.reverse else none
  | none => none

/-! ## matching -/

/-- Bytes as characters, so that patterns apply to them. -/
def byteChars (bytes : List UInt8) : List Char := bytes.map fun b => Char.ofNat b.toNat

/-- The bytes of one character. -/
def encoded (c : Char) : List Char := byteChars (Text.bytes (String.ofList [c]))

def anyByte : CharSet := .range '\x00' '\xff'

def noSlash : CharSet := .except (.only '/')

/-- The bytes in a range of characters. A character of several bytes stands for each one of them,
except that the range extends from the last byte of the lower character to the first byte of the
upper one. -/
def rangeSets (range : Char × Char) : List CharSet :=
  if range.1 = range.2 then (encoded range.1).map .only
  else
    match (encoded range.1).reverse, encoded range.2 with
    | last :: low, first :: high =>
      low.reverse.map .only ++ .range last first :: high.map .only
    | _, _ => []

/-- The bytes in any of several sets. -/
def unionSet : List CharSet → CharSet
  | [] => .except anyByte
  | set :: sets => sets.foldl .either set

mutual

/-- The pattern of a token. A group without any text does not count. -/
def Token.pattern : Token → Pattern
  | .literal c => .text (String.ofList (encoded c))
  | .any => .char noSlash
  | .star => .run noSlash
  | .leadingDirectories =>
    .orElse (.optional (.text "/")) (.seq (.run anyByte) (.text "/"))
  | .everythingBelow => .seq (.text "/") (.run anyByte)
  | .innerDirectories =>
    .orElse (.text "/") (.sequence [.text "/", .run anyByte, .text "/"])
  | .oneOf negated ranges =>
    let set := unionSet (ranges.flatMap rangeSets)
    .char (if negated then .except set else set)
  | .alternatives branches => .choice (branchPatterns branches)

/-- The pattern of consecutive tokens. -/
def tokensPattern : List Token → Pattern
  | [] => .empty
  | t :: ts => .seq (Token.pattern t) (tokensPattern ts)

/-- The patterns of the branches that are not empty. -/
def branchPatterns : List (List Token) → List Pattern
  | [] => []
  | branch :: rest =>
    if isVoid branch then branchPatterns rest else tokensPattern branch :: branchPatterns rest

/-- The tokens describe nothing but the empty text because there is no text in them. -/
def isVoid : List Token → Bool
  | [] => true
  | .alternatives branches :: rest => areVoid branches && isVoid rest
  | _ :: _ => false

def areVoid : List (List Token) → Bool
  | [] => true
  | branch :: rest => isVoid branch && areVoid rest

end

/-- The search program of a glob. A glob that is nothing but leading directories describes every
path. -/
def program (tokens : List Token) : Program :=
  match tokens with
  | [.leadingDirectories] => (Pattern.sequence [.edge .start, .run anyByte, .edge .stop]).program
  | _ => (Pattern.sequence [.edge .start, tokensPattern tokens, .edge .stop]).program

/-- Whether a glob, given by its program, describes a path. -/
def accepts (program : Program) (path : OsText) : Bool := (program.find? (byteChars path)).isSome

end SourceAtlas.Glob
