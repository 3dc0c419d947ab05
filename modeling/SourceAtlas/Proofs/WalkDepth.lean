import Mathlib.Data.Finset.Card
import Mathlib.Data.Finset.Dedup
import SourceAtlas.Proofs.WalkOrder

/-!
How deep a walk goes.

* `Walk.Enters`: one directory is entered from another one.
* `Walk.Within`: the directories around a visit are directories of the file system, and the path of
  the visit leads to its own place if it leads anywhere.
* `Walk.remaining`: a number that gets smaller whenever a directory is entered. A link that is
  followed leads to a directory that is not around yet, and between two links the walk goes down
  one level at a time.
* `Walk.length_lt_depthBound`: directories entered one inside the other are fewer than the depth
  that `findings` allows, whatever the links do.
* `Walk.visit_eq_visit`: a greater depth finds nothing more.
-/

namespace SourceAtlas

namespace Walk

variable {w : Walk} {v inner : Visit}

/-- The directory `inner` is entered at an item of the directory `v`. -/
def Enters (w : Walk) (v inner : Visit) : Prop :=
  ∃ items, w.fs.list v.path = .ok items ∧
    ∃ named ∈ items, w.stepAt v named.1 named.2 = .enter inner

/-- The places of the directories around a visit. -/
def placesAround (v : Visit) : Finset Place := (v.around.map Prod.fst).toFinset

/-- A visit and all those around it are visits of directories. The path may be too long, or a
directory on the way may be closed, but it leads nowhere else. -/
structure Within (w : Walk) (v : Visit) : Prop where
  isDirectory : w.fs.IsDirectoryAt v.place
  around : ∀ place ∈ placesAround v, w.fs.IsDirectoryAt place
  path_eq : ∀ place, w.fs.locate v.path = .ok place → place = v.place

theorem within_start {place : Place} (hroot : w.fs.locate w.root = .ok place)
    (h : w.fs.IsDirectoryAt place) : w.Within (w.start place) where
  isDirectory := h
  around p hp := by
    have : p = place := by simpa [placesAround, start, visitOf] using hp
    exact this ▸ h
  path_eq there hthere := by
    have : w.fs.locate w.root = .ok there := hthere
    rw [hroot] at this
    exact (Except.ok.inj this).symm

theorem card_placesAround_le (h : w.Within v) :
    (placesAround v).card ≤ w.fs.top.countDirectories := by
  have hsub : placesAround v ⊆ w.fs.top.directoryPlaces.toFinset := by
    intro place hplace
    obtain ⟨mode, items, hat⟩ := h.around place hplace
    exact List.mem_toFinset.2 (Item.mem_directoryPlaces hat)
  calc (placesAround v).card
      ≤ w.fs.top.directoryPlaces.toFinset.card := Finset.card_le_card hsub
    _ ≤ w.fs.top.directoryPlaces.length := List.toFinset_card_le _
    _ = w.fs.top.countDirectories := Item.length_directoryPlaces _

theorem length_place_lt {fs : FileSystem} {place : Place} (h : fs.IsDirectoryAt place) :
    place.length + 1 ≤ fs.top.countDirectories := by
  obtain ⟨mode, items, hat⟩ := h
  have hle := Item.length_add_countDirectories_le hat
  simp only [Item.countDirectories] at hle
  omega

/-! ## what an entered directory is -/

theorem look_eq_directory {name : OsText} {item : Item} {place : Place} {linked : Bool}
    (h : w.look v name item = .directory place linked) :
    (linked = false ∧ place = v.place ++ [name] ∧ ∃ mode items, item = .directory mode items) ∨
      (linked = true ∧ w.fs.IsDirectoryAt place ∧
        w.fs.locate (Path.join v.path name) = .ok place) := by
  unfold look at h
  split at h
  · simp at h
  · rename_i mode items
    simp only [Sight.directory.injEq] at h
    exact .inl ⟨h.2.symm, h.1.symm, mode, items, rfl⟩
  · split at h
    · split at h
      · simp at h
      · rename_i there hlocate
        split at h
        · rename_i mode items hat
          split at h
          · simp only [Sight.directory.injEq] at h
            obtain ⟨rfl, rfl⟩ := h
            exact .inr ⟨rfl, ⟨mode, items, hat⟩, hlocate⟩
          · simp at h
        · simp at h
        · simp at h
    · simp at h

/-- What is listed at the path of a visit is what is in its directory. -/
theorem Within.at?_of_list {items : List (OsText × Item)} (hv : w.Within v)
    (h : w.fs.list v.path = .ok items) :
    w.fs.locate v.path = .ok v.place ∧
      ∃ mode, w.fs.top.at? v.place = some (.directory mode items) := by
  obtain ⟨place, mode, hlocate, hat, -⟩ := FileSystem.list_eq_ok_iff.1 h
  obtain rfl := hv.path_eq place hlocate
  exact ⟨hlocate, mode, hat⟩

/-- An entered directory is one level further down, or it lies behind a link and is not around
yet. -/
theorem Enters.cases (hfs : w.fs.top.isWellFormed) (hv : w.Within v) (h : w.Enters v inner) :
    w.fs.IsDirectoryAt inner.place ∧
      placesAround inner = insert inner.place (placesAround v) ∧
      (∀ place, w.fs.locate inner.path = .ok place → place = inner.place) ∧
      (inner.place.length = v.place.length + 1 ∨ inner.place ∉ placesAround v) := by
  obtain ⟨items, hlist, ⟨name, item⟩, hmem, henter⟩ := h
  obtain ⟨hlocate, mode, hat⟩ := hv.at?_of_list hlist
  have hname := (FileSystem.isWellFormed_list hfs hlist).2 _ hmem
  have hitem := FileSystem.at?_concat_of_mem hfs hat hmem
  obtain ⟨place, linked, hlook, hfree, rfl⟩ := stepAt_eq_enter henter
  have haround : placesAround (w.visitOf place (Path.join v.path name) v.around v.rules) =
      insert place (placesAround v) := by
    simp [placesAround, visitOf]
  rcases look_eq_directory hlook with ⟨-, rfl, mode', items', rfl⟩ | ⟨hlinked, hdir, hlink⟩
  · refine ⟨⟨mode', items', hitem⟩, haround, ?_, .inl (by simp [visitOf])⟩
    intro there hthere
    exact FileSystem.eq_of_locate_join hlocate hv.isDirectory hname hitem rfl hthere
  · refine ⟨hdir, haround, ?_, .inr ?_⟩
    · intro there hthere
      have : w.fs.locate (Path.join v.path name) = .ok there := hthere
      rw [hlink] at this
      exact (Except.ok.inj this).symm
    · simpa [placesAround, visitOf] using hfree hlinked

theorem Within.enter (hfs : w.fs.top.isWellFormed) (hv : w.Within v) (h : w.Enters v inner) :
    w.Within inner := by
  obtain ⟨hdir, haround, hpath, -⟩ := h.cases hfs hv
  refine ⟨hdir, ?_, hpath⟩
  rw [haround]
  intro place hplace
  rcases Finset.mem_insert.1 hplace with rfl | hplace
  · exact hdir
  · exact hv.around place hplace

/-! ## the measure -/

/-- How many directories may still be entered, one inside the other: each new directory around
leaves room for as many levels as there are directories. -/
def remaining (w : Walk) (v : Visit) : Nat :=
  (w.fs.top.countDirectories - (placesAround v).card) * w.fs.top.countDirectories +
    (w.fs.top.countDirectories - (v.place.length + 1))

theorem remaining_lt (hfs : w.fs.top.isWellFormed) (hv : w.Within v) (h : w.Enters v inner) :
    w.remaining inner < w.remaining v := by
  have hinner := hv.enter hfs h
  have hcard := card_placesAround_le hinner
  have hlength := length_place_lt hinner.isDirectory
  obtain ⟨-, haround, -, hcases⟩ := h.cases hfs hv
  unfold remaining
  generalize w.fs.top.countDirectories = n at hcard hlength
  rcases hcases with hdown | hnew
  · have hle : (placesAround v).card ≤ (placesAround inner).card := by
      rw [haround]
      exact Finset.card_le_card (Finset.subset_insert _ _)
    have hmul : (n - (placesAround inner).card) * n ≤ (n - (placesAround v).card) * n :=
      Nat.mul_le_mul_right n (by omega)
    omega
  · have hone : (placesAround inner).card = (placesAround v).card + 1 := by
      rw [haround, Finset.card_insert_of_notMem hnew]
    have hsub : n - (placesAround v).card = n - (placesAround inner).card + 1 := by omega
    have hmul : (n - (placesAround v).card) * n = (n - (placesAround inner).card) * n + n := by
      rw [hsub, Nat.succ_mul]
    omega

theorem remaining_lt_depthBound (w : Walk) (v : Visit) : w.remaining v < depthBound w.fs := by
  unfold remaining depthBound
  generalize w.fs.top.countDirectories = n
  have hmul : (n - (placesAround v).card) * n ≤ n * n := Nat.mul_le_mul_right n (by omega)
  have hsquare : (n + 1) * (n + 1) = n * n + n + (n + 1) := by rw [Nat.succ_mul, Nat.mul_succ]
  omega

/-! ## whole walks -/

theorem length_le_remaining (hfs : w.fs.top.isWellFormed) {visits : List Visit} (hv : w.Within v)
    (h : (v :: visits).IsChain w.Enters) : visits.length ≤ w.remaining v := by
  induction visits generalizing v with
  | nil => simp
  | cons inner visits ih =>
    rw [List.isChain_cons_cons] at h
    have hrest := ih (hv.enter hfs h.1) h.2
    have hlt := remaining_lt hfs hv h.1
    rw [List.length_cons]
    omega

/-- Directories that are entered one inside the other are fewer than the depth bound. -/
theorem length_lt_depthBound (hfs : w.fs.top.isWellFormed) {visits : List Visit}
    (hv : w.Within v) (h : (v :: visits).IsChain w.Enters) : visits.length < depthBound w.fs := by
  have hle := length_le_remaining hfs hv h
  have hlt := w.remaining_lt_depthBound v
  omega

/-- Any depth that the measure does not exceed gives the same findings. -/
theorem visit_eq_visit (hfs : w.fs.top.isWellFormed) {depth depth' : Nat} (hv : w.Within v)
    (h : w.remaining v < depth) (h' : w.remaining v < depth') :
    w.visit depth v = w.visit depth' v := by
  induction depth generalizing v depth' with
  | zero => omega
  | succ depth ih =>
    obtain ⟨depth', rfl⟩ : ∃ k, depth' = k + 1 := ⟨depth' - 1, by omega⟩
    rw [visit, visit]
    cases hlist : w.fs.list v.path with
    | error cause => rfl
    | ok items =>
      refine List.flatMap_congr fun named hnamed => ?_
      cases henter : w.stepAt v named.1 named.2 with
      | note found => rfl
      | enter inner =>
        have hin : w.Enters v inner := ⟨items, hlist, named, mem_sortedItems.1 hnamed, henter⟩
        have hlt := remaining_lt hfs hv hin
        exact ih (hv.enter hfs hin) (by omega) (by omega)

end Walk

end SourceAtlas
