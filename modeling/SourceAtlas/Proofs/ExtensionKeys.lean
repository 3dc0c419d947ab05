import SourceAtlas.Proofs.Names
import SourceAtlas.Settings.Check

/-!
The keys of the extension table that take effect.

* `Text.mem_of_mem_lower`: lower case makes no dots and no slashes.
* `Path.extension?_dotted`: what follows the only dot of a name is its extension.
* `IsPlainKey`: a dot, and then small letters or other characters that are neither dots nor slashes.
* `dottedExtension?_key_eq_some_iff`: the names that are made with a key have it as their extension
  exactly if it is plain.
* `Settings.accepted_key_effective_iff`: when such a name has the language of its key.
-/

namespace SourceAtlas

/-! ## lower case -/

namespace Text

/-- No capital beyond ASCII has a lower-case form before the digits. -/
theorem capitalRuns_beyond : ∀ run ∈ capitalRuns.toList, 48 ≤ (run.1 : Int) + run.2.2.2 := by
  decide +kernel

theorem code_of_mem {d : Char} (hd : d ∈ ['.', '/']) : d.toNat = 46 ∨ d.toNat = 47 := by
  simp only [List.mem_cons, List.not_mem_nil, or_false] at hd
  rcases hd with rfl | rfl
  · exact Or.inl rfl
  · exact Or.inr rfl

theorem eq_of_toLower_eq {c d : Char} (hd : d ∈ ['.', '/']) (h : d = c.toLower) : d = c := by
  have hcode := code_of_mem hd
  unfold Char.toLower at h
  split at h
  · -- a capital becomes a letter
    rename_i hcapital
    have hlow : 65 ≤ c.toNat := hcapital.1
    have hhigh : c.toNat ≤ 90 := hcapital.2
    have hval : d.toNat = (c.toNat + 32) % 2 ^ 32 := by
      rw [h]
      rfl
    omega
  · exact h

theorem ofNat_ne_of_le {d : Char} (hd : d ∈ ['.', '/']) {n : Nat} (hn : 48 ≤ n) :
    d ≠ Char.ofNat n := by
  intro hdn
  have hcode := code_of_mem hd
  have hvalue : (Char.ofNat n).toNat = n ∨ (Char.ofNat n).toNat = 0 := by
    unfold Char.ofNat
    by_cases hvalid : n.isValidChar
    · rw [dif_pos hvalid]
      exact Or.inl rfl
    · rw [dif_neg hvalid]
      exact Or.inr rfl
  rw [← hdn] at hvalue
  omega

theorem mem_of_mem_lowerChar {c d : Char} (hd : d ∈ ['.', '/']) (h : d ∈ lowerChar c) : d = c := by
  unfold lowerChar at h
  split at h
  · exact eq_of_toLower_eq hd (List.mem_singleton.1 h)
  · split at h
    · -- the dotted capital I becomes two characters
      simp only [List.mem_cons, List.not_mem_nil, or_false] at h
      rcases h with h | h
      · exact absurd h (ofNat_ne_of_le hd (n := 0x69) (by omega))
      · exact absurd h (ofNat_ne_of_le hd (by omega))
    · split at h
      · rename_i run hrun
        have hfirst : run.1 ≤ c.toNat := by
          have hfits := Array.find?_some hrun
          simp only [Bool.and_eq_true, decide_eq_true_eq] at hfits
          exact hfits.1.1
        have hmem : run ∈ capitalRuns.toList :=
          Array.mem_toList_iff.2 (Array.mem_of_find?_eq_some hrun)
        have hbeyond := capitalRuns_beyond run hmem
        exact absurd (List.mem_singleton.1 h) (ofNat_ne_of_le hd (by omega))
      · exact List.mem_singleton.1 h

theorem mem_of_mem_lowerFrom {d : Char} (hd : d ∈ ['.', '/']) {before cs : List Char}
    (h : d ∈ lowerFrom before cs) : d ∈ cs := by
  induction cs generalizing before with
  | nil => cases h
  | cons c rest ih =>
    rw [lowerFrom] at h
    rcases List.mem_append.1 h with h | h
    · refine List.mem_cons.2 (Or.inl ?_)
      split at h
      · -- a sigma stays one
        rw [List.mem_singleton] at h
        split at h
        · exact absurd h (ofNat_ne_of_le hd (by omega))
        · exact absurd h (ofNat_ne_of_le hd (by omega))
      · exact mem_of_mem_lowerChar hd h
    · exact List.mem_cons_of_mem _ (ih h)

/-- Lower case makes no dots and no slashes. -/
theorem mem_of_mem_lower {d : Char} (hd : d ∈ ['.', '/']) {s : String}
    (h : d ∈ (lower s).toList) : d ∈ s.toList := by
  rw [lower, String.toList_ofList] at h
  exact mem_of_mem_lowerFrom hd h

end Text

/-! ## extensions -/

namespace Path

theorem dot_not_mem_of_extensionOf? {name ext : OsText} (h : extensionOf? name = some ext) :
    dot ∉ ext ∧ ext ⊆ name := by
  unfold extensionOf? at h
  dsimp only at h
  split at h
  · cases h
  · cases h
    refine ⟨fun hmem => ?_, fun b hb => ?_⟩
    · have := List.mem_takeWhile_imp (List.mem_reverse.1 hmem)
      simp at this
    · have := List.takeWhile_subset _ (List.mem_reverse.1 hb)
      exact List.mem_reverse.1 this

theorem extensionOf?_dotted {stem ext : OsText} (hstem : stem ≠ []) (hext : dot ∉ ext) :
    extensionOf? (stem ++ dot :: ext) = some ext := by
  have htail : (stem ++ dot :: ext).reverse.takeWhile (· != dot) = ext.reverse := by
    rw [List.reverse_append, List.reverse_cons, List.append_assoc, List.takeWhile_append_of_pos]
    · simp
    · intro b hb
      have hne : b ≠ dot := fun e => hext (e ▸ List.mem_reverse.1 hb)
      simpa using hne
  have hbefore : ((stem ++ dot :: ext).reverse.drop ext.reverse.length).drop 1 = stem.reverse := by
    rw [List.reverse_append, List.reverse_cons, List.append_assoc, List.drop_left]
    rfl
  unfold extensionOf?
  simp only [htail, hbefore]
  rw [if_neg]
  · simp
  · simp [hstem]
    omega

theorem eq_name_of_laterComponent? {piece text : OsText}
    (h : laterComponent? piece = some (.name text)) : text = piece := by
  unfold laterComponent? at h
  split at h
  · cases h
  · split at h
    · cases h
    · cases h
      rfl

theorem eq_name_of_firstComponent? {piece text : OsText}
    (h : firstComponent? piece = some (.name text)) : text = piece := by
  unfold firstComponent? at h
  split at h
  · cases h
  · exact eq_name_of_laterComponent? h

/-- The names in a path stand between its slashes. -/
theorem mem_splitOn_of_mem_components {path text : OsText}
    (h : Component.name text ∈ components path) : text ∈ Text.splitOn isSlash path := by
  unfold components at h
  split at h
  · cases h
  · rename_i first rest hpieces
    rw [hpieces]
    rcases List.mem_append.1 h with h | h
    · split at h
      · simp at h
      · rw [Option.mem_toList] at h
        exact List.mem_cons.2 (Or.inl (eq_name_of_firstComponent? h))
    · obtain ⟨piece, hpiece, hname⟩ := List.mem_filterMap.1 h
      rw [eq_name_of_laterComponent? hname]
      exact List.mem_cons_of_mem _ hpiece

/-- The last name of a path has no slash. -/
theorem slash_not_mem_of_fileName? {path name : OsText} (h : fileName? path = some name) :
    slash ∉ name := by
  obtain ⟨component, hlast, hname⟩ := Option.bind_eq_some_iff.1 h
  have hcomponent : component = .name name := by
    cases component <;> simp_all [Component.name?]
  have hmem : Component.name name ∈ components path :=
    hcomponent ▸ List.mem_of_getLast? hlast
  intro hslash
  have hnot := Text.not_cut_of_mem_splitOn (mem_splitOn_of_mem_components hmem) slash hslash
  simp [isSlash] at hnot

theorem dot_mem_bytes_iff {s : String} : dot ∈ Text.bytes s ↔ '.' ∈ s.toList :=
  Text.mem_bytes_iff (by decide)

theorem not_mem_of_extension? {path : OsText} {ext : String} (h : extension? path = some ext) :
    '.' ∉ ext.toList ∧ '/' ∉ ext.toList := by
  obtain ⟨bytes, hbytes, hext⟩ := Option.bind_eq_some_iff.1 h
  obtain ⟨name, hname, hbytes⟩ := Option.bind_eq_some_iff.1 hbytes
  obtain rfl := Text.Utf8.decode?_eq_some_iff.1 hext
  obtain ⟨hdot, hsub⟩ := dot_not_mem_of_extensionOf? hbytes
  rw [← dot_mem_bytes_iff, ← slash_mem_bytes_iff]
  exact ⟨hdot, fun hslash => slash_not_mem_of_fileName? hname (hsub hslash)⟩

/-- What follows the only dot of a name is its extension. -/
theorem extension?_dotted {ext : String} (hdot : '.' ∉ ext.toList) (hslash : '/' ∉ ext.toList) :
    extension? (Text.bytes ("f" ++ ("." ++ ext))) = some ext := by
  have hbytes : Text.bytes ("f" ++ ("." ++ ext)) = Text.bytes "f" ++ dot :: Text.bytes ext := by
    rw [Text.bytes_append, Text.bytes_append]
    rfl
  have hname : IsName (Text.bytes "f" ++ dot :: Text.bytes ext) := by
    have hne (other : OsText) (h : other.head? ≠ (Text.bytes "f").head?) :
        Text.bytes "f" ++ dot :: Text.bytes ext ≠ other := by
      rintro rfl
      exact h rfl
    refine ⟨hne [] (by decide), hne [dot] (by decide), hne [dot, dot] (by decide), ?_⟩
    rw [← slash_mem_bytes_iff] at hslash
    simpa using ⟨(by decide : slash ∉ Text.bytes "f"), (by decide : slash ≠ dot), hslash⟩
  rw [← dot_mem_bytes_iff] at hdot
  rw [hbytes, extension?, fileName?, components_name hname]
  show (extensionOf? _).bind Text.Utf8.decode? = some ext
  rw [extensionOf?_dotted (by decide) hdot, Option.bind_some, Text.Utf8.decode?_bytes]

end Path

/-! ## keys -/

/-- A key that is the lower-case extension of some names: a dot, and after it neither dots nor
slashes nor anything that lower case changes. -/
def IsPlainKey (key : String) : Prop :=
  ∃ ext, key = "." ++ ext ∧ '.' ∉ ext.toList ∧ '/' ∉ ext.toList ∧ Text.lower ext = ext

/-- The name that is made with a key has it as its extension exactly if the key is plain. -/
theorem dottedExtension?_key_eq_some_iff {key : String} :
    dottedExtension? (Text.bytes ("f" ++ key)) = some key ↔ IsPlainKey key := by
  constructor
  · intro h
    obtain ⟨ext, hext, hkey⟩ := Option.map_eq_some_iff.1 h
    obtain ⟨hdot, hslash⟩ := Path.not_mem_of_extension? hext
    have hdot' : '.' ∉ (Text.lower ext).toList :=
      fun hmem => hdot (Text.mem_of_mem_lower (by simp) hmem)
    have hslash' : '/' ∉ (Text.lower ext).toList :=
      fun hmem => hslash (Text.mem_of_mem_lower (by simp) hmem)
    -- the extension of the name is what follows the dot of the key
    have hsame : ext = Text.lower ext := by
      rw [← hkey, Path.extension?_dotted hdot' hslash'] at hext
      exact (Option.some.inj hext).symm
    exact ⟨ext, by rw [← hkey, ← hsame], hdot, hslash, hsame.symm⟩
  · rintro ⟨ext, rfl, hdot, hslash, hlower⟩
    rw [dottedExtension?, Path.extension?_dotted hdot hslash, Option.map_some, hlower]

theorem AnalysisSettings.languageFor?_eq_some_iff {s : AnalysisSettings} {key : String}
    {l : Language} : s.languageFor? key = some l ↔ (key, l) ∈ s.extensions.entries :=
  Table.find?_eq_some_iff

namespace Settings

/-- The keys of accepted settings are a dot and something after it. -/
theorem isExtension_of_check {s : Settings} (h : s.check = .ok s) :
    ∀ e ∈ s.analysis.extensions.entries, isExtension e.1 = true := by
  have hnone : analysisFault? s.analysis = none := by
    unfold check at h
    cases hfault : s.fault? with
    | some fault =>
      rw [hfault] at h
      cases h
    | none =>
      rw [fault?, Option.or_eq_none_iff] at hfault
      exact hfault.1
  unfold analysisFault? at hnone
  split at hnone
  · cases hnone
  · split at hnone
    · cases hnone
    · rename_i hfind
      intro e he
      simpa using List.find?_eq_none.1 hfind e he

/-- **The keys that take effect.**  In settings that are accepted, every key of the extension table
is a dot and something after it.  The name that is made with such a key has the key's language
exactly if the key is plain, or if the extension of the name happens to be another key with that
language. -/
theorem accepted_key_effective_iff {s : Settings} (hs : s.check = .ok s) {key : String}
    {l : Language} (h : (key, l) ∈ s.analysis.extensions.entries) :
    isExtension key = true ∧
      (s.analysis.languageOf? (Text.bytes ("f" ++ key)) = some l ↔
        IsPlainKey key ∨ ∃ other, other ≠ key ∧
          dottedExtension? (Text.bytes ("f" ++ key)) = some other ∧
          (other, l) ∈ s.analysis.extensions.entries) := by
  refine ⟨isExtension_of_check hs _ h, ?_⟩
  rw [AnalysisSettings.languageOf?, Option.bind_eq_some_iff]
  constructor
  · rintro ⟨other, hother, hl⟩
    rw [AnalysisSettings.languageFor?_eq_some_iff] at hl
    by_cases heq : other = key
    · subst heq
      exact Or.inl (dottedExtension?_key_eq_some_iff.1 hother)
    · exact Or.inr ⟨other, heq, hother, hl⟩
  · rintro (hplain | ⟨other, -, hother, hl⟩)
    · exact ⟨key, dottedExtension?_key_eq_some_iff.2 hplain,
        AnalysisSettings.languageFor?_eq_some_iff.2 h⟩
    · exact ⟨other, hother, AnalysisSettings.languageFor?_eq_some_iff.2 hl⟩

/-- The standard settings with other extensions. -/
def withExtensions (entries : List (String × Language)) : Settings :=
  { standard with analysis := { standard.analysis with extensions := .ofList entries } }

def declarationKeys : Settings :=
  withExtensions [(".d.ts", .typeScript), (".ts", .typeScript)]

/-- A key with two dots takes effect, because what follows the second one is a key as well. -/
theorem accepted_key_effective_iff_declarations :
    declarationKeys.check = .ok declarationKeys ∧
      (".d.ts", .typeScript) ∈ declarationKeys.analysis.extensions.entries ∧
      declarationKeys.analysis.languageOf? (Text.bytes ("f" ++ ".d.ts")) = some .typeScript := by
  have hs : declarationKeys.check = .ok declarationKeys := by rfl
  have hkey : (".d.ts", .typeScript) ∈ declarationKeys.analysis.extensions.entries :=
    List.mem_cons_self
  have hother : (".ts", .typeScript) ∈ declarationKeys.analysis.extensions.entries :=
    List.mem_cons_of_mem _ List.mem_cons_self
  have hdotted : dottedExtension? (Text.bytes ("f" ++ ".d.ts")) = some ".ts" := by rfl
  exact ⟨hs, hkey, (accepted_key_effective_iff hs hkey).2.2
    (Or.inr ⟨".ts", by simp, hdotted, hother⟩)⟩

def capitalKey : Settings := withExtensions [(".H", .cpp)]

/-- A key with a capital is accepted, but its names have no language. -/
theorem accepted_capital_key_ineffective :
    capitalKey.check = .ok capitalKey ∧ (".H", .cpp) ∈ capitalKey.analysis.extensions.entries ∧
      capitalKey.analysis.languageOf? (Text.bytes ("f" ++ ".H")) = none := by
  have hs : capitalKey.check = .ok capitalKey := by rfl
  have hnone : capitalKey.analysis.languageOf? (Text.bytes ("f" ++ ".H")) = none := by rfl
  exact ⟨hs, List.mem_cons_self, hnone⟩

end Settings

end SourceAtlas
