import SourceAtlas.Proofs.Order
import SourceAtlas.Proofs.Places
import SourceAtlas.Walk.Basic

/-!
The order in which a walk finds things.

* `Walk.stepAt_eq_note`, `Walk.stepAt_eq_enter`: what a single step can do.
* `Walk.trail`: what a walk finds, together with the names that it has come by.
  `Walk.map_snd_trail`: without these names it is what `Walk.visit` finds.
* `Walk.Reached`: the names by which a walk has come to a directory.
* `Walk.noted_of_mem_trail`: what is found is noted under the names that it was found by.
* `Walk.pairwise_trail`: what is found later is reached by names that part from the earlier ones and
  go on with a greater name. Links may be followed or not.
* `Walk.nodup_relative_visit`: nothing is found twice, as long as names are text.
-/

namespace SourceAtlas

def Finding.relative : Finding → String
  | file _ relative => relative
  | unreadable relative _ => relative

/-- Names that part are shown differently, as long as they are text. -/
theorem Path.nodup_shown {ways : List (List OsText)} (hparts : ways.Pairwise (Parts (· < ·)))
    (htext : ∀ names ∈ ways, ∀ name ∈ names, IsName name ∧ isText name) :
    (ways.map shown).Nodup := by
  refine List.pairwise_map.2 (hparts.imp_of_mem fun {names others} h h' hlt => ?_)
  rw [Ne, shown_inj (htext names h) (htext others h')]
  exact hlt.ne fun name => List.lt_irrefl name

namespace Walk

variable {w : Walk} {v inner : Visit} {name : OsText} {item : Item} {f : Finding} {depth : Nat}
  {names found : List OsText} {items : List (OsText × Item)}

/-! ## one step -/

/-- Whatever is noted at an item is noted under its path, except for links that cannot be looked
behind. -/
theorem stepAt_eq_note (h : w.stepAt v name item = .note (some f)) :
    f = .file (Path.join v.path name) (Path.relative w.root (Path.join v.path name)) ∨
      f = closedLink ∨
      ∃ message, f = .unreadable (Path.relative w.root (Path.join v.path name)) message := by
  unfold stepAt at h
  dsimp only at h
  split at h
  · simp at h
  · simp only [Step.note.injEq, Option.some.injEq] at h
    exact .inr (.inr ⟨_, h.symm⟩)
  · simp only [Step.note.injEq, Option.some.injEq] at h
    exact .inr (.inl h.symm)
  · split at h
    · simp at h
    · simp only [Step.note.injEq, Option.some.injEq] at h
      exact .inl h.symm
  · split at h
    · simp only [Step.note.injEq, Option.some.injEq] at h
      exact .inr (.inr ⟨_, h.symm⟩)
    · split at h <;> simp at h

/-- A directory is entered if it is neither excluded nor ignored. Behind a link it must not be one
of those around. -/
theorem stepAt_eq_enter (h : w.stepAt v name item = .enter inner) :
    ∃ place linked, w.look v name item = .directory place linked ∧
      (linked = true → place ∉ v.around.map Prod.fst) ∧
      inner = w.visitOf place (Path.join v.path name) v.around v.rules := by
  unfold stepAt at h
  dsimp only at h
  split at h
  · simp at h
  · simp at h
  · simp at h
  · simp at h
  · rename_i place linked hlook
    split at h
    · simp at h
    · rename_i hfree
      split at h
      · simp at h
      · refine ⟨place, linked, hlook, ?_, (Step.enter.inj h).symm⟩
        intro hlinked hmem
        obtain ⟨a, ha, rfl⟩ := List.mem_map.1 hmem
        rw [if_pos hlinked, List.find?_eq_none] at hfree
        exact hfree a ha (by simp)

/-! ## what is found, and by which names -/

/-- What is found in a directory and below it, each with the names that lead to it. The directory
itself has been come to by `names`. -/
def trail (w : Walk) : Nat → List OsText → Visit → List (List OsText × Finding)
  | 0, _, _ => []
  | depth + 1, names, v =>
    match w.fs.list v.path with
    | .error cause => [(names, w.failure v.path cause)]
    | .ok items =>
      (sortedItems items).flatMap fun named =>
        match w.stepAt v named.1 named.2 with
        | .note found => found.toList.map fun f => (names ++ [named.1], f)
        | .enter inner => w.trail depth (names ++ [named.1]) inner

/-- What is found at an item of a directory and below it. -/
def trailAt (w : Walk) (depth : Nat) (names : List OsText) (v : Visit) (named : OsText × Item) :
    List (List OsText × Finding) :=
  match w.stepAt v named.1 named.2 with
  | .note found => found.toList.map fun f => (names ++ [named.1], f)
  | .enter inner => w.trail depth (names ++ [named.1]) inner

theorem trail_of_list_error {cause : FileError} (h : w.fs.list v.path = .error cause)
    (depth : Nat) (names : List OsText) :
    w.trail (depth + 1) names v = [(names, w.failure v.path cause)] := by
  rw [trail, h]

theorem trail_of_list_ok (h : w.fs.list v.path = .ok items) (depth : Nat) (names : List OsText) :
    w.trail (depth + 1) names v = (sortedItems items).flatMap (w.trailAt depth names v) := by
  rw [trail, h]
  rfl

theorem map_snd_trail (w : Walk) (depth : Nat) (names : List OsText) (v : Visit) :
    (w.trail depth names v).map Prod.snd = w.visit depth v := by
  induction depth generalizing names v with
  | zero => rfl
  | succ depth ih =>
    rw [trail, visit]
    cases w.fs.list v.path with
    | error cause => rfl
    | ok items =>
      show ((sortedItems items).flatMap _).map Prod.snd = _
      rw [List.map_flatMap]
      refine List.flatMap_congr fun named _ => ?_
      cases w.stepAt v named.1 named.2 with
      | note noted => cases noted <;> rfl
      | enter inner => exact ih _ _

theorem mem_trailAt {named : OsText × Item} :
    (found, f) ∈ w.trailAt depth names v named ↔
      (w.stepAt v named.1 named.2 = .note (some f) ∧ found = names ++ [named.1]) ∨
        ∃ inner, w.stepAt v named.1 named.2 = .enter inner ∧
          (found, f) ∈ w.trail depth (names ++ [named.1]) inner := by
  unfold trailAt
  cases w.stepAt v named.1 named.2 with
  | note noted => cases noted <;> simp [eq_comm, and_comm]
  | enter inner => simp

theorem mem_sortedItems {named : OsText × Item} : named ∈ sortedItems items ↔ named ∈ items :=
  (List.mergeSort_perm _ _).mem_iff

theorem mem_trail_succ :
    (found, f) ∈ w.trail (depth + 1) names v ↔
      (∃ cause, w.fs.list v.path = .error cause ∧ found = names ∧ f = w.failure v.path cause) ∨
        ∃ items, w.fs.list v.path = .ok items ∧
          ∃ named ∈ items, (found, f) ∈ w.trailAt depth names v named := by
  cases h : w.fs.list v.path with
  | error cause => simp [trail_of_list_error h]
  | ok items => simp [trail_of_list_ok h, mem_sortedItems]

/-- The names of the items, once they are sorted, increase. -/
theorem pairwise_sortedItems (h : (items.map Prod.fst).Nodup) :
    (sortedItems items).Pairwise fun a b => a.1 < b.1 := by
  have hle : (sortedItems items).Pairwise fun a b => a.1 ≤ b.1 := by
    have := @List.pairwise_mergeSort _ (fun a b : OsText × Item => decide (a.1 ≤ b.1))
      (by intro a b c hab hbc; simp only [decide_eq_true_eq] at *; exact List.le_trans hab hbc)
      (by intro a b; simp only [Bool.or_eq_true, decide_eq_true_eq]; exact List.le_total _ _) items
    simpa only [sortedItems, decide_eq_true_eq] using this
  have hne : (sortedItems items).Pairwise fun a b => a.1 ≠ b.1 := by
    have hperm : (sortedItems items).Perm items := List.mergeSort_perm _ _
    exact List.pairwise_map.1 ((hperm.map Prod.fst).nodup_iff.2 h)
  exact (hle.and hne).imp fun hab => Std.lt_of_le_of_ne hab.1 hab.2

/-! ## names -/

/-- A walk has come to a directory by some names. -/
def Reached (w : Walk) (v : Visit) (names : List OsText) : Prop :=
  v.path = Path.under w.root names ∧ ∀ name ∈ names, Path.IsName name

theorem reached_start (w : Walk) (place : Place) : w.Reached (w.start place) [] :=
  ⟨rfl, by simp⟩

theorem Reached.concat (hv : w.Reached v names) (hname : Path.IsName name) :
    Path.join v.path name = Path.under w.root (names ++ [name]) ∧
      ∀ n ∈ names ++ [name], Path.IsName n := by
  refine ⟨?_, List.forall_mem_append.2 ⟨hv.2, List.forall_mem_singleton.2 hname⟩⟩
  rw [Path.under_concat, ← hv.1]

theorem Reached.enter (hv : w.Reached v names) (hname : Path.IsName name)
    (h : w.stepAt v name item = .enter inner) : w.Reached inner (names ++ [name]) := by
  obtain ⟨place, linked, -, -, rfl⟩ := stepAt_eq_enter h
  exact hv.concat hname

/-- The file that some names lead to. -/
def fileAt (w : Walk) (names : List OsText) : Finding :=
  .file (Path.under w.root names) (Path.shown names)

/-- Something is found where some names lead to: the file there, or something unreadable, of which
only links that cannot be looked behind do not tell where they are. -/
def NotedAt (w : Walk) (names : List OsText) (f : Finding) : Prop :=
  f = w.fileAt names ∨ f = closedLink ∨ ∃ message, f = .unreadable (Path.shown names) message

theorem NotedAt.relative_eq (h : w.NotedAt names f) (hf : f ≠ closedLink) :
    f.relative = Path.shown names := by
  rcases h with rfl | rfl | ⟨message, rfl⟩
  · rfl
  · exact absurd rfl hf
  · rfl

theorem Reached.noted (hv : w.Reached v names) (hname : Path.IsName name)
    (h : w.stepAt v name item = .note (some f)) : w.NotedAt (names ++ [name]) f := by
  obtain ⟨hpath, hnames⟩ := hv.concat hname
  have hnote := stepAt_eq_note h
  rw [hpath, Path.relative_under w.root hnames] at hnote
  exact hnote

theorem Reached.noted_failure (hv : w.Reached v names) (cause : FileError) :
    w.NotedAt names (w.failure v.path cause) := by
  unfold NotedAt failure
  rw [hv.1, Path.relative_under w.root hv.2]
  exact .inr (.inr ⟨_, rfl⟩)

/-- What is found by some names is noted under them, and they begin with the names of the directory
where the search began. -/
theorem noted_of_mem_trail (hfs : w.fs.top.isWellFormed) (hv : w.Reached v names)
    (h : (found, f) ∈ w.trail depth names v) :
    names <+: found ∧ (∀ name ∈ found, Path.IsName name) ∧ w.NotedAt found f := by
  induction depth generalizing v names with
  | zero => cases h
  | succ depth ih =>
    rcases mem_trail_succ.1 h with ⟨cause, -, rfl, rfl⟩ | ⟨items, hitems, named, hnamed, h⟩
    · exact ⟨List.prefix_rfl, hv.2, hv.noted_failure cause⟩
    · have hname := FileSystem.isName_list hfs hitems named hnamed
      rcases mem_trailAt.1 h with ⟨hnote, rfl⟩ | ⟨inner, henter, h⟩
      · exact ⟨List.prefix_append names _, (hv.concat hname).2, hv.noted hname hnote⟩
      · obtain ⟨hbegin, hrest⟩ := ih (hv.enter hname henter) h
        exact ⟨(List.prefix_append names _).trans hbegin, hrest⟩

/-- What holds of all names that are listed holds of those by which something is found. -/
theorem forall_of_mem_trail {P : OsText → Prop}
    (hP : ∀ path items, w.fs.list path = .ok items → ∀ named ∈ items, P named.1)
    (hnames : ∀ name ∈ names, P name) (h : (found, f) ∈ w.trail depth names v) :
    ∀ name ∈ found, P name := by
  induction depth generalizing v names with
  | zero => cases h
  | succ depth ih =>
    rcases mem_trail_succ.1 h with ⟨cause, -, rfl, rfl⟩ | ⟨items, hitems, named, hnamed, h⟩
    · exact hnames
    · have hmore : ∀ name ∈ names ++ [named.1], P name :=
        List.forall_mem_append.2 ⟨hnames, List.forall_mem_singleton.2 (hP _ _ hitems named hnamed)⟩
      rcases mem_trailAt.1 h with ⟨-, rfl⟩ | ⟨inner, -, h⟩
      · exact hmore
      · exact ih hmore h

/-- What is found at an item is found by names that begin with those of the directory and of the
item. -/
theorem exists_of_mem_trailAt (hfs : w.fs.top.isWellFormed) (hv : w.Reached v names)
    {named : OsText × Item} (hname : Path.IsName named.1)
    (h : (found, f) ∈ w.trailAt depth names v named) :
    ∃ rest, found = names ++ named.1 :: rest := by
  rcases mem_trailAt.1 h with ⟨-, rfl⟩ | ⟨inner, henter, h⟩
  · exact ⟨[], rfl⟩
  · obtain ⟨⟨rest, rfl⟩, -⟩ := noted_of_mem_trail hfs (hv.enter hname henter) h
    exact ⟨rest, by simp⟩

/-- The names of what is found first part from those of what is found later. -/
theorem pairwise_trail (hfs : w.fs.top.isWellFormed) (hv : w.Reached v names) :
    (w.trail depth names v).Pairwise fun a b => Parts (· < ·) a.1 b.1 := by
  induction depth generalizing v names with
  | zero => exact List.Pairwise.nil
  | succ depth ih =>
    cases hlist : w.fs.list v.path with
    | error cause =>
      rw [trail_of_list_error hlist]
      exact List.pairwise_singleton _ _
    | ok items =>
      have hnodup := (FileSystem.isWellFormed_list hfs hlist).1
      have hlegal := FileSystem.isName_list hfs hlist
      rw [trail_of_list_ok hlist, List.pairwise_flatMap]
      constructor
      · intro named hnamed
        have hname := hlegal named (mem_sortedItems.1 hnamed)
        unfold trailAt
        split
        · rename_i noted _
          cases noted <;> simp
        · rename_i inner henter
          exact ih (hv.enter hname henter)
      · refine (pairwise_sortedItems hnodup).imp_of_mem fun {a b} ha hb hlt => ?_
        intro f hf g hg
        have hlegala := hlegal a (mem_sortedItems.1 ha)
        have hlegalb := hlegal b (mem_sortedItems.1 hb)
        obtain ⟨rest, hfrest⟩ := exists_of_mem_trailAt hfs hv hlegala hf
        obtain ⟨rest', hgrest⟩ := exists_of_mem_trailAt hfs hv hlegalb hg
        rw [hfrest, hgrest]
        exact (parts_cons hlt rest rest').append_left names

/-- Where names are text, nothing that is found later is noted under the same names, unless a link
that cannot be looked behind is among it. -/
theorem nodup_relative_visit (hfs : w.fs.top.isWellFormed) (htext : w.fs.top.hasTextNames)
    (place : Place) (hclosed : closedLink ∉ w.visit depth (w.start place)) :
    ((w.visit depth (w.start place)).map Finding.relative).Nodup := by
  have hv := w.reached_start place
  rw [← w.map_snd_trail depth [] (w.start place)] at hclosed ⊢
  have hrelative : ((w.trail depth [] (w.start place)).map Prod.snd).map Finding.relative =
      ((w.trail depth [] (w.start place)).map Prod.fst).map Path.shown := by
    rw [List.map_map, List.map_map]
    refine List.map_congr_left fun a ha => ?_
    obtain ⟨-, -, hnoted⟩ := noted_of_mem_trail hfs hv ha
    exact hnoted.relative_eq fun heq => hclosed (List.mem_map.2 ⟨a, ha, heq⟩)
  rw [hrelative]
  apply Path.nodup_shown
  · exact List.pairwise_map.2 (pairwise_trail hfs hv)
  · refine List.forall_mem_map.2 fun a ha name hname => ?_
    obtain ⟨-, hnames, -⟩ := noted_of_mem_trail hfs hv ha
    have htexts : ∀ name ∈ a.1, Path.isText name :=
      forall_of_mem_trail (fun _ _ => FileSystem.isText_list htext) (by simp) ha
    exact ⟨hnames name hname, htexts name hname⟩

end Walk

end SourceAtlas
