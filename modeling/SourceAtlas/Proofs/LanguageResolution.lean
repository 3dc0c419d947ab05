import SourceAtlas.Proofs.ExtensionKeys

/-!
The two ways from a path to its language.

* `Language.IsExtensionOf`: an extension, as it is listed, belongs to a language.
* `Language.find?_extensionTable_eq_some_iff`: what the table finds, dot included.
* `Language.find?_known_eq_some_iff`: what the search through the languages finds. No extension
  belongs to two of them.
* `language_resolutions_agree`: both find the same language for every path.
-/

namespace SourceAtlas

namespace Language

/-- The extension, without a dot and in small letters, belongs to a known language. -/
def IsExtensionOf (ext : String) (l : Language) : Prop := l ∈ known ∧ ext ∈ l.extensions

/-- The entries of the table in the order of the languages. -/
def dottedExtensions : List (String × Language) :=
  known.flatMap fun l => l.extensions.map fun ext => ("." ++ ext, l)

/-- No extension is listed twice, be it for one language or for two. -/
theorem nodup_dottedExtensions : (dottedExtensions.map Prod.fst).Nodup := by
  decide

variable {ext : String} {l m : Language}

theorem mem_dottedExtensions : ("." ++ ext, l) ∈ dottedExtensions ↔ IsExtensionOf ext l := by
  simp only [dottedExtensions, IsExtensionOf, List.mem_flatMap, List.mem_map, Prod.mk.injEq]
  constructor
  · rintro ⟨known, hknown, listed, hlisted, hdotted, rfl⟩
    have hsame : listed = ext := by simpa using hdotted
    exact ⟨hknown, hsame ▸ hlisted⟩
  · rintro ⟨hknown, hext⟩
    exact ⟨l, hknown, ext, hext, rfl, rfl⟩

theorem find?_extensionTable_eq_some_iff :
    extensionTable.find? ("." ++ ext) = some l ↔ IsExtensionOf ext l := by
  rw [extensionTable, Table.find?_ofList, ← dottedExtensions,
    Entries.lookup_reverse nodup_dottedExtensions,
    Entries.lookup_eq_some_iff_mem nodup_dottedExtensions, mem_dottedExtensions]

/-- No extension belongs to two languages. -/
theorem IsExtensionOf.unique (hl : IsExtensionOf ext l) (hm : IsExtensionOf ext m) : l = m := by
  rw [← find?_extensionTable_eq_some_iff] at hl hm
  exact Option.some.inj (hl.symm.trans hm)

/-- The first language with an extension is the only one. -/
theorem find?_known_eq_some_iff :
    (known.find? fun l => l.extensions.contains ext) = some l ↔ IsExtensionOf ext l := by
  constructor
  · intro h
    have hext := List.find?_some h
    exact ⟨List.mem_of_find?_eq_some h, by simpa using hext⟩
  · intro h
    have hsome : (known.find? fun l => l.extensions.contains ext).isSome = true :=
      List.find?_isSome.2 ⟨l, h.1, by simpa using h.2⟩
    obtain ⟨m, hm⟩ := Option.isSome_iff_exists.1 hsome
    have hlisted : IsExtensionOf ext m :=
      ⟨List.mem_of_find?_eq_some hm, by simpa using List.find?_some hm⟩
    rw [hm, hlisted.unique h]

/-- An extension without the dots in front of it. -/
def withoutDots (ext : String) : String := String.ofList (ext.toList.dropWhile (· == '.'))

theorem withoutDots_of_not_mem (h : '.' ∉ ext.toList) : withoutDots ext = ext := by
  have hkept : ext.toList.dropWhile (· == '.') = ext.toList := by
    cases hchars : ext.toList with
    | nil => rfl
    | cons c rest =>
      have hne : c ≠ '.' := fun heq => h (by simp [hchars, heq])
      rw [List.dropWhile_cons, if_neg (by simpa using hne)]
  rw [withoutDots, hkept, String.ofList_toList]

theorem ofExtension_eq_iff :
    ofExtension ext = l ∧ l ≠ unknown ↔ IsExtensionOf (Text.lower (withoutDots ext)) l := by
  rw [← find?_known_eq_some_iff]
  have hdef : ofExtension ext =
      (known.find? fun l => l.extensions.contains (Text.lower (withoutDots ext))).getD unknown :=
    rfl
  rw [hdef]
  cases hfind : known.find? fun l => l.extensions.contains (Text.lower (withoutDots ext)) with
  | none =>
    refine iff_of_false ?_ (by simp)
    rintro ⟨rfl, hne⟩
    exact hne rfl
  | some m =>
    have hknown : m ≠ unknown := by
      rintro rfl
      exact absurd (List.mem_of_find?_eq_some hfind) (by decide)
    constructor
    · rintro ⟨rfl, -⟩
      rfl
    · intro h
      cases h
      exact ⟨rfl, hknown⟩

end Language

/-- **Both ways lead to the same language.**  With the standard settings, a path has a language
exactly if the search through the languages finds a known one, and then it is that one.  It makes no
difference whether an extension, in small letters and with its dot, is looked up in the table or the
languages are searched for it. -/
theorem language_resolutions_agree :
    (∀ path l, AnalysisSettings.standard.languageOf? path = some l ↔
      Language.ofPath path = l ∧ l ≠ .unknown) ∧
    ∀ ext l, Language.extensionTable.find? ("." ++ Text.lower (Language.withoutDots ext)) = some l ↔
      Language.ofExtension ext = l ∧ l ≠ .unknown := by
  refine ⟨fun path l => ?_, fun ext l => ?_⟩
  · rw [AnalysisSettings.languageOf?, dottedExtension?, Language.ofPath]
    cases hext : Path.extension? path with
    | none =>
      refine iff_of_false (by simp) ?_
      rintro ⟨rfl, hne⟩
      exact hne rfl
    | some ext =>
      have hbare := Language.withoutDots_of_not_mem (Path.not_mem_of_extension? hext).1
      show Language.extensionTable.find? ("." ++ Text.lower ext) = some l ↔
        Language.ofExtension ext = l ∧ l ≠ .unknown
      rw [Language.find?_extensionTable_eq_some_iff, Language.ofExtension_eq_iff, hbare]
  · rw [Language.find?_extensionTable_eq_some_iff, Language.ofExtension_eq_iff]

end SourceAtlas
