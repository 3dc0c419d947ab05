import SourceAtlas.Pattern.Basic

/-!
Searching a text for a pattern.

A pattern is compiled to a list of steps. The search reads the text once and keeps, in order of
preference, the places in the program that can be reached so far; a place that is reached twice is
kept only with the better way to it. The time is therefore bounded by the product of the two
lengths.

* `Step`, `Pattern.compile`: the program of a pattern.
* `Thread`: a place in the program and the text kept on the way to it.
* `Program.find?`: the leftmost match, and of those the most preferred one.
-/

namespace SourceAtlas

inductive Step where
  /-- One character of a set, then the next step. -/
  | take (set : CharSet)
  /-- The next step, if the edge is here. -/
  | check (edge : Edge)
  | jump (target : Nat)
  /-- Two ways to go on, the preferred one first. -/
  | fork (first second : Nat)
  /-- The kept text begins or ends here. -/
  | mark (begins : Bool)
deriving Repr

/-- The steps of a pattern that are placed from `base` on. Their end is the match. -/
def Pattern.compile (base : Nat) : Pattern → List Step
  | .empty => []
  | .char set => [.take set]
  | .edge e => [.check e]
  | .seq a b =>
    let first := a.compile base
    first ++ b.compile (base + first.length)
  | .orElse a b =>
    let first := a.compile (base + 1)
    let second := b.compile (base + first.length + 2)
    .fork (base + 1) (base + first.length + 2) ::
      (first ++ .jump (base + first.length + second.length + 2) :: second)
  | .many short a =>
    let body := a.compile (base + 1)
    let after := base + body.length + 2
    (if short then .fork after (base + 1) else .fork (base + 1) after) :: (body ++ [.jump base])
  | .keep a => .mark true :: (a.compile (base + 1) ++ [.mark false])

abbrev Program := Array Step

def Pattern.program (p : Pattern) : Program := (p.compile 0).toArray

/-- A place in a program, with the position at which the kept text began and its extent. -/
structure Thread where
  place : Nat
  begun : Option Nat
  kept : Option (Nat × Nat)
deriving Repr

namespace Program

/-- The step that a thread stands before; none after the last one. -/
def step? (program : Program) (t : Thread) : Option Step := program[t.place]?

/-- Follows all steps that read no character. `seen` are the places met at this position, `live` the
threads that wait for a character or have matched, the preferred one last. Every step down marks a
new place, so that the length of the program bounds the depth. -/
def follow (program : Program) (position : Nat) (before after : Option Char) :
    Nat → Thread → List Nat × List Thread → List Nat × List Thread
  | 0, _, found => found
  | fuel + 1, t, (seen, live) =>
    if seen.contains t.place then (seen, live)
    else
      let seen := t.place :: seen
      let go (t : Thread) := follow program position before after fuel t
      match program.step? t with
      | none | some (.take _) => (seen, t :: live)
      | some (.check edge) =>
        if edge.holds before after then go { t with place := t.place + 1 } (seen, live)
        else (seen, live)
      | some (.jump target) => go { t with place := target } (seen, live)
      | some (.fork first second) =>
        go { t with place := second } (go { t with place := first } (seen, live))
      | some (.mark true) => go { t with place := t.place + 1, begun := some position } (seen, live)
      | some (.mark false) =>
        go { t with place := t.place + 1, kept := t.begun.map fun b => (b, position) } (seen, live)

/-- All threads that can be reached at a position, the preferred one first. -/
def reach (program : Program) (position : Nat) (before after : Option Char)
    (threads : List Thread) : List Thread :=
  (threads.foldl
    (fun found t => program.follow position before after (program.size + 1) t found)
    ([], [])).2.reverse

def isMatch (program : Program) (t : Thread) : Bool := t.place == program.size

/-- The threads that read the character `c`, moved past it. -/
def read (program : Program) (c : Char) (threads : List Thread) : List Thread :=
  threads.filterMap fun t =>
    match program.step? t with
    | some (.take set) => if set.contains c then some { t with place := t.place + 1 } else none
    | _ => none

/-- Runs the threads over the rest of a text. While nothing has matched, a new thread starts at
every position, preferred less than all others. A match ends the threads preferred less than it. -/
def scan (program : Program) (before : Option Char) (position : Nat) (threads : List Thread)
    (best : Option Thread) : List Char → Option Thread
  | [] =>
    let live := program.reach position before none (seeded threads best)
    (live.find? program.isMatch).or best
  | c :: rest =>
    let live := program.reach position before (some c) (seeded threads best)
    let best := (live.find? program.isMatch).or best
    let preferred := live.takeWhile fun t => !program.isMatch t
    program.scan (some c) (position + 1) (program.read c preferred) best rest
where
  seeded (threads : List Thread) (best : Option Thread) : List Thread :=
    if best.isNone then threads ++ [⟨0, none, none⟩] else threads

/-- The kept part of the leftmost match in a text, or `some none` if the match keeps nothing. -/
def find? (program : Program) (cs : List Char) : Option (Option (List Char)) :=
  (program.scan none 0 [] none cs).map fun t =>
    t.kept.map fun (first, last) => (cs.drop first).take (last - first)

end Program

end SourceAtlas
