import SourceAtlas.Proofs.JsonValues
import SourceAtlas.Proofs.RecordSet
import SourceAtlas.Proofs.TreeView
import SourceAtlas.Report.Json

/-!
Records and reports as JSON values, and back.

* `Node.Storable`, `Record.Storable`: what can be told apart from its JSON value.
* `Record.ofJson?_toJson`, `Report.ofJson?_toJson`: what is read from the JSON value of a record or
  report, in whatever order its fields are.
* `Record.storable_of_ofJson?`: only storable records are ever read.
* `Report.json_round_trip`: exactly the storable records are read back as they are, and with them
  whole reports.
-/

namespace SourceAtlas

open Json

variable {f : Json → Json}

/-! ## fields and lists -/

namespace Json

@[simp]
theorem byPosition_obj (names : List String) (fields : List (String × Json)) :
    (obj fields).byPosition names = some (.obj fields) := rfl

@[simp]
theorem lookup_present (name other : String) (value : Option Json) :
    (present name value).lookup other = if other = name then value else none := by
  cases value with
  | none => simp [present]
  | some v =>
    by_cases h : other = name
    · simp [present, h]
    · simp [present, h, Entries.lookup_cons_of_ne h]

/-- An optional field holds what was encoded there. -/
theorem optional_of_get? {α β : Type} {v : Json} {name : String} {decode : Json → Option β}
    {encode : α → Json} {g : α → β} {value : Option α}
    (hget : v.get? name = (value.map encode).map f) (hnull : decode .null = none)
    (hdecode : ∀ a, value = some a → decode (f (encode a)) = some (g a)) :
    v.optional name decode = some (value.map g) := by
  cases value with
  | none => simp [Json.optional, hget]
  | some a =>
    have ha := hdecode a rfl
    rw [Json.optional, hget, Option.map_some, Option.map_some]
    split
    · contradiction
    · rename_i hfield
      rw [Option.some.inj hfield, hnull] at ha
      contradiction
    · rename_i hfield
      rw [← Option.some.inj hfield, ha]
      rfl

/-- What an optional field holds was decoded from some value other than `null`. -/
theorem exists_of_optional {α : Type} {v : Json} {name : String} {decode : Json → Option α} {a : α}
    (h : v.optional name decode = some (some a)) : ∃ w, w ≠ .null ∧ decode w = some a := by
  rw [Json.optional] at h
  split at h
  · simp at h
  · simp at h
  · rename_i field hnull _
    refine ⟨field, fun heq => hnull heq, ?_⟩
    simpa using h

theorem mapM_map_eq_some {α β : Type} {decode : Json → Option β} {encode : α → Json} {g : α → β}
    {xs : List α} (h : ∀ x ∈ xs, decode (encode x) = some (g x)) :
    (xs.map encode).mapM decode = some (xs.map g) := by
  induction xs with
  | nil => rfl
  | cons x xs ih =>
    have hx := h x List.mem_cons_self
    have hxs := ih fun y hy => h y (List.mem_cons_of_mem _ hy)
    simp [List.mapM_cons, hx, hxs]

/-- A list is decoded item by item. -/
theorem listOf_arr (hf : Rearranges f) {α β : Type} {decode : Json → Option β} {encode : α → Json}
    {g : α → β} {xs : List α} (h : ∀ x ∈ xs, decode (f (encode x)) = some (g x)) :
    listOf decode (f (.arr (xs.map encode))) = some (xs.map g) := by
  rw [hf.arr, listOf, arr?, Option.bind_some, List.map_map]
  exact mapM_map_eq_some h

theorem exists_of_mem_mapM {α : Type} {decode : Json → Option α} {items : List Json}
    {values : List α} (h : items.mapM decode = some values) :
    ∀ a ∈ values, ∃ v ∈ items, decode v = some a := by
  induction items generalizing values with
  | nil =>
    cases h
    simp
  | cons v items ih =>
    simp only [List.mapM_cons, Option.bind_eq_bind, Option.bind_eq_some_iff, Option.pure_def] at h
    obtain ⟨a, ha, rest, hrest, heq⟩ := h
    cases heq
    intro b hb
    rcases List.mem_cons.1 hb with rfl | hb
    · exact ⟨v, List.mem_cons_self, ha⟩
    · obtain ⟨w, hw, hdecode⟩ := ih hrest b hb
      exact ⟨w, List.mem_cons_of_mem _ hw, hdecode⟩

/-- Every value of a list that was decoded comes from some item. -/
theorem exists_of_mem_listOf {α : Type} {decode : Json → Option α} {v : Json} {values : List α}
    (h : listOf decode v = some values) : ∀ a ∈ values, ∃ w, decode w = some a := by
  obtain ⟨items, -, hitems⟩ := Option.bind_eq_some_iff.1 h
  intro a ha
  obtain ⟨w, -, hw⟩ := exists_of_mem_mapM hitems a ha
  exact ⟨w, hw⟩

theorem Rearranges.str?_str (hf : Rearranges f) (s : String) : str? (f (.str s)) = some s := by
  rw [hf.str]
  rfl

theorem listOf_strings (hf : Rearranges f) (texts : List String) :
    listOf str? (f (strings texts)) = some texts := by
  rw [strings, listOf_arr hf fun s _ => hf.str?_str s]
  exact congrArg some (List.map_id texts)

end Json

/-! ## kinds -/

namespace NodeKind

theorem ofText_text_of_mem_named : ∀ k ∈ named, ofText k.text = k := by decide

theorem mem_named_or_eq_grammar (k : NodeKind) : k ∈ named ∨ ∃ type, k = grammar type := by
  cases k with
  | grammar type => exact Or.inr ⟨type, rfl⟩
  | _ => exact Or.inl (by decide)

theorem grammar_not_mem_named (type : String) : grammar type ∉ named := by simp [named]

theorem ofText_of_forall_ne {s : String} (h : ∀ k ∈ named, k.text ≠ s) : ofText s = grammar s := by
  have hnone : (named.find? fun k => k.text == s) = none := by
    rw [List.find?_eq_none]
    intro k hk heq
    exact h k hk (beq_iff_eq.1 heq)
  rw [ofText, hnone, Option.getD_none]

/-- A kind is read from its text unless it is a parser's node type with the name of another kind. -/
theorem ofText_text_eq_iff {k : NodeKind} :
    ofText k.text = k ↔ ∀ other ∈ named, k ≠ grammar other.text := by
  constructor
  · rintro h other hother rfl
    rw [text, ofText_text_of_mem_named other hother] at h
    exact grammar_not_mem_named _ (h ▸ hother)
  · intro h
    rcases mem_named_or_eq_grammar k with hk | ⟨type, rfl⟩
    · exact ofText_text_of_mem_named k hk
    · refine ofText_of_forall_ne fun other hother heq => h other hother ?_
      rw [heq, text]

/-- The kind that is read from a text is read from its own text. -/
theorem ofText_text_ofText (s : String) : ofText (ofText s).text = ofText s := by
  by_cases h : ∃ k ∈ named, k.text = s
  · obtain ⟨k, hk, rfl⟩ := h
    rw [ofText_text_of_mem_named k hk, ofText_text_of_mem_named k hk]
  · have hne : ∀ k ∈ named, k.text ≠ s := fun k hk heq => h ⟨k, hk, heq⟩
    rw [ofText_of_forall_ne hne, text, ofText_of_forall_ne hne]

end NodeKind

/-! ## the parts of a record -/

theorem Language.ofJson?_id (hf : Rearranges f) (l : Language) :
    Language.ofJson? (f (.str l.id)) = some l := by
  rw [hf.str]
  cases l <;> rfl

theorem Strategy.ofJson?_text (hf : Rearranges f) (s : Strategy) :
    Strategy.ofJson? (f (.str s.text)) = some s := by
  rw [hf.str]
  cases s <;> rfl

theorem NameSet.insertInto_of_forall_lt {name : String} {names : List String}
    (h : ∀ x ∈ names, x < name) : insertInto name names = names ++ [name] := by
  induction names with
  | nil => rfl
  | cons x names ih =>
    have hx := h x List.mem_cons_self
    rw [insertInto, if_neg (String.lt_asymm hx), if_neg (String.ne_of_lt hx).symm,
      ih fun y hy => h y (List.mem_cons_of_mem _ hy)]
    rfl

theorem NameSet.toList_foldl_insert {names : List String} {s : NameSet}
    (h : (s.toList ++ names).Pairwise (· < ·)) :
    (names.foldl insert s).toList = s.toList ++ names := by
  induction names generalizing s with
  | nil => simp
  | cons name names ih =>
    have hlt : ∀ x ∈ s.toList, x < name := fun x hx =>
      (List.pairwise_append.1 h).2.2 x hx name List.mem_cons_self
    have hinsert : (s.insert name).toList = s.toList ++ [name] := insertInto_of_forall_lt hlt
    have hassoc : s.toList ++ name :: names = (s.insert name).toList ++ names := by
      rw [hinsert, List.append_assoc]
      rfl
    rw [List.foldl_cons, hassoc]
    exact ih (hassoc ▸ h)

theorem NameSet.eq_of_toList {s t : NameSet} (h : s.toList = t.toList) : s = t := by
  cases s
  cases t
  cases h
  rfl

/-- A set is made of the names in its list. -/
theorem NameSet.ofList_toList (s : NameSet) : ofList s.toList = s :=
  eq_of_toList (toList_foldl_insert (s := empty) s.sorted)

theorem Metadata.namesOfJson?_strings (hf : Rearranges f) (names : NameSet) :
    namesOfJson? (f (strings names.toList)) = some names := by
  rw [namesOfJson?, listOf_strings hf, Option.map_some, NameSet.ofList_toList]

theorem Metadata.ofJson?_toJson (hf : Rearranges f) (m : Metadata) :
    Metadata.ofJson? (f m.toJson) = some m := by
  obtain ⟨fields, hobj, hlookup⟩ : ∃ fields, f m.toJson = .obj fields ∧
      ∀ name, fields.lookup name = (m.toJson.get? name).map f := hf.obj (by simp)
  rw [hobj]
  simp [ofJson?, required, get?, hlookup, toJson, List.lookup_cons, natural, hf.int, nat?,
    namesOfJson?_strings hf]

theorem Span.ofJson?_toJson (hf : Rearranges f) (s : Span) :
    Span.ofJson? (f s.toJson) = some s := by
  obtain ⟨fields, hobj, hlookup⟩ : ∃ fields, f s.toJson = .obj fields ∧
      ∀ name, fields.lookup name = (s.toJson.get? name).map f := hf.obj (by simp)
  rw [hobj]
  simp [ofJson?, required, get?, hlookup, toJson, List.lookup_cons, natural, hf.int, nat?]

/-! ## units -/

namespace Node

/-- What a unit becomes when it is written and read: its kind is taken by its name, and a tree that
is `null` is no tree. -/
def asRead (n : Node) : Node where
  kind := .ofText n.kind.text
  name := n.name
  line := n.line
  content := n.content
  span := n.span
  exported := n.exported
  tree := match n.tree with
    | some .null => none
    | tree => tree

/-- A unit that its JSON value shows in full. -/
structure Storable (n : Node) : Prop where
  /-- Its kind is not a parser's node type with the name of another kind. -/
  kind : ∀ k ∈ NodeKind.named, n.kind ≠ .grammar k.text
  /-- Its tree is not `null`. -/
  tree : n.tree ≠ some .null

theorem asRead_eq_iff {n : Node} : n.asRead = n ↔ n.Storable := by
  constructor
  · intro h
    have hkind := congrArg Node.kind h
    have htree := congrArg Node.tree h
    refine ⟨NodeKind.ofText_text_eq_iff.1 hkind, fun hnull => ?_⟩
    simp [asRead, hnull] at htree
  · intro h
    cases n with
    | mk kind name line content span exported tree =>
      simp only [asRead, Node.mk.injEq, true_and]
      refine ⟨NodeKind.ofText_text_eq_iff.2 h.kind, ?_⟩
      split
      · exact absurd rfl h.tree
      · rfl

theorem toJson_eq (n : Node) : n.toJson =
    .obj ([("kind", .str n.kind.text), ("name", .str n.name), ("line", .natural n.line)] ++
      present "content" (n.content.map .str) ++ present "span" (n.span.map Span.toJson) ++
      present "exported" (if n.exported then some (.bool true) else none) ++
      present "tree" n.tree) := by
  rw [toJson]
  cases n.exported <;> rfl

/-- A unit is read from its JSON value, in whatever order the fields are. -/
theorem ofJson?_toJson (hf : Rearranges f) {n : Node} (htree : ∀ t, n.tree = some t → f t = t) :
    Node.ofJson? (f n.toJson) = some n.asRead := by
  obtain ⟨fields, hobj, hget⟩ : ∃ fields, f n.toJson = .obj fields ∧
      ∀ name, (obj fields).get? name = (n.toJson.get? name).map f := by
    refine hf.obj ?_
    cases n.content <;> cases n.span <;> cases n.exported <;> cases n.tree <;> simp [present]
  have hkind : (obj fields).get? "kind" = some (.str n.kind.text) := by
    rw [hget]
    simp [toJson_eq, get?, hf.str]
  have hname : (obj fields).get? "name" = some (.str n.name) := by
    rw [hget]
    simp [toJson_eq, get?, List.lookup_cons, hf.str]
  have hline : (obj fields).get? "line" = some (.int n.line) := by
    rw [hget]
    simp [toJson_eq, get?, List.lookup_cons, natural, hf.int]
  have hcontent : (obj fields).get? "content" = (n.content.map .str).map f := by
    rw [hget]
    simp [toJson_eq, get?, List.lookup_append, List.lookup_cons]
  have hspan : (obj fields).get? "span" = (n.span.map Span.toJson).map f := by
    rw [hget]
    simp [toJson_eq, get?, List.lookup_append, List.lookup_cons]
  have hexported : (obj fields).get? "exported" =
      if n.exported then some (.bool true) else none := by
    rw [hget]
    cases h : n.exported <;>
      simp [toJson_eq, get?, List.lookup_append, List.lookup_cons, h, hf.bool]
  have htree : (obj fields).get? "tree" = n.tree := by
    rw [hget]
    cases h : n.tree with
    | none => simp [toJson_eq, get?, List.lookup_append, List.lookup_cons, h]
    | some t => simp [toJson_eq, get?, List.lookup_append, List.lookup_cons, h, htree t h]
  have hasRead : (obj fields).optional "tree" some = some n.asRead.tree := by
    rw [Json.optional, htree, asRead]
    cases h : n.tree with
    | none => rfl
    | some t => cases t <;> rfl
  have hcontent := optional_of_get? hcontent rfl fun s _ => hf.str?_str s
  have hspan := optional_of_get? hspan rfl fun s _ => Span.ofJson?_toJson hf s
  rw [hobj]
  cases h : n.exported <;>
    simp [ofJson?, required, hkind, hname, hline, hcontent, hspan, hexported, hasRead, asRead, str?,
      nat?, bool?, h]

/-- A unit that was read is storable. -/
theorem storable_of_ofJson? {v : Json} {n : Node} (h : Node.ofJson? v = some n) : n.Storable := by
  simp only [ofJson?, Option.bind_eq_bind, Option.bind_eq_some_iff, Option.pure_def] at h
  obtain ⟨v, -, kind, -, name, -, line, -, content, -, span, -, h⟩ := h
  have hparts : n.kind = .ofText kind ∧ v.optional "tree" some = some n.tree := by
    split at h
    all_goals
      simp only [Option.bind_eq_some_iff, Option.some.injEq] at h
      obtain ⟨exported, -, tree, htree, rfl⟩ := h
      exact ⟨rfl, htree⟩
  obtain ⟨hkind, htree⟩ := hparts
  refine ⟨hkind ▸ NodeKind.ofText_text_eq_iff.1 (NodeKind.ofText_text_ofText kind), fun hnull => ?_⟩
  rw [hnull] at htree
  obtain ⟨w, hw, heq⟩ := exists_of_optional htree
  exact hw (Option.some.inj heq)

end Node

namespace Record

/-- What a record becomes when it is written and read. -/
def asRead (r : Record) : Record := { r with body := r.body.map fun nodes => nodes.map Node.asRead }

/-- A record all units of which are storable. -/
def Storable (r : Record) : Prop := ∀ nodes, r.body = some nodes → ∀ n ∈ nodes, n.Storable

theorem asRead_eq_iff {r : Record} : r.asRead = r ↔ r.Storable := by
  constructor
  · intro h nodes hbody n hn
    have hmap := congrArg Record.body h
    rw [asRead, hbody] at hmap
    have : nodes.map Node.asRead = nodes.map id := by simpa using hmap
    exact Node.asRead_eq_iff.1 (List.map_inj_left.1 this n hn)
  · intro h
    cases r with
    | mk path language strategy body error metadata =>
    cases body with
    | none => rfl
    | some nodes =>
      have : nodes.map Node.asRead = nodes.map id :=
        List.map_inj_left.2 fun n hn => Node.asRead_eq_iff.2 (h nodes rfl n hn)
      simp [asRead, this]

/-- A record is read from its JSON value, in whatever order the fields are. -/
theorem ofJson?_toJson (hf : Rearranges f) {r : Record}
    (htrees : ∀ nodes, r.body = some nodes → ∀ n ∈ nodes, ∀ t, n.tree = some t → f t = t) :
    Record.ofJson? (f r.toJson) = some r.asRead := by
  obtain ⟨fields, hobj, hget⟩ : ∃ fields, f r.toJson = .obj fields ∧
      ∀ name, (obj fields).get? name = (r.toJson.get? name).map f := by
    refine hf.obj ?_
    cases r.strategy <;> cases r.error <;> simp [present]
  have hpath : (obj fields).get? "path" = some (.str r.path) := by
    rw [hget]
    simp [toJson, get?, hf.str]
  have hlanguage : (obj fields).get? "language" = some (f (.str r.language.id)) := by
    rw [hget]
    simp [toJson, get?, List.lookup_cons]
  have hstrategy : (obj fields).get? "strategy" =
      (r.strategy.map fun strategy => .str strategy.text).map f := by
    rw [hget]
    simp [toJson, get?, List.lookup_append, List.lookup_cons]
  have hbody : (obj fields).get? "syntax_body" =
      some (f ((r.body.map fun nodes => Json.arr (nodes.map Node.toJson)).getD .null)) := by
    rw [hget]
    simp [toJson, get?, List.lookup_append, List.lookup_cons]
  have herror : (obj fields).get? "error" = (r.error.map .str).map f := by
    rw [hget]
    simp [toJson, get?, List.lookup_append, List.lookup_cons]
  have hmetadata : (obj fields).get? "metadata" = some (f r.metadata.toJson) := by
    rw [hget]
    simp [toJson, get?, List.lookup_append, List.lookup_cons]
  have hstrategy := optional_of_get? hstrategy rfl fun s _ => Strategy.ofJson?_text hf s
  have herror := optional_of_get? herror rfl fun s _ => hf.str?_str s
  have hnodes : (obj fields).optional "syntax_body" (listOf Node.ofJson?) = some r.asRead.body := by
    cases h : r.body with
    | none => simp [Json.optional, hbody, h, hf.null, asRead]
    | some nodes =>
      have hdecode : listOf Node.ofJson? (f (.arr (nodes.map Node.toJson))) =
          some (nodes.map Node.asRead) :=
        listOf_arr hf fun n hn => Node.ofJson?_toJson hf (htrees nodes h n hn)
      have hsome : (obj fields).get? "syntax_body" =
          ((some nodes).map fun nodes => Json.arr (nodes.map Node.toJson)).map f := by
        rw [hbody, h]
        rfl
      rw [optional_of_get? hsome rfl (fun _ heq => Option.some.inj heq ▸ hdecode), asRead, h]
  rw [hobj]
  simp [ofJson?, required, hpath, hlanguage, hstrategy, hnodes, herror, hmetadata, asRead, str?,
    Language.ofJson?_id hf, Metadata.ofJson?_toJson hf]

/-- A record that was read is storable. -/
theorem storable_of_ofJson? {v : Json} {r : Record} (h : Record.ofJson? v = some r) :
    r.Storable := by
  simp only [ofJson?, Option.bind_eq_bind, Option.bind_eq_some_iff, Option.pure_def,
    Option.some.injEq] at h
  obtain ⟨v, -, path, -, language, -, strategy, -, body, hbody, error, -, metadata, -, rfl⟩ := h
  rintro nodes rfl n hn
  obtain ⟨w, -, hw⟩ := exists_of_optional hbody
  obtain ⟨u, hu⟩ := exists_of_mem_listOf hw n hn
  exact Node.storable_of_ofJson? hu

end Record

/-! ## the parts of a report -/

namespace RecordSet

theorem mem_of_mem_ofList {records : List Record} {r : Record} (h : r ∈ (ofList records).toList) :
    r ∈ records := by
  induction records using List.reverseRecOn with
  | nil => exact h
  | append_singleton records q ih =>
    rw [ofList_concat, toList_push] at h
    split at h
    · exact List.mem_append_left _ (ih h)
    · rcases List.mem_append.1 h with h | h
      · exact List.mem_append_left _ (ih h)
      · exact List.mem_append_right _ h

/-- A set is built from what it lists. -/
theorem ofList_toList_ofList (records : List Record) :
    ofList (ofList records).toList = ofList records := by
  induction records using List.reverseRecOn with
  | nil => rfl
  | append_singleton records r ih =>
    rw [ofList_concat, toList_push]
    split
    · rename_i hmem
      rw [ih, push, push?, if_pos hmem]
      rfl
    · rw [ofList_concat, ih]

theorem ofJson?_toJson (hf : Rearranges f) {s : RecordSet}
    (hs : ∀ r ∈ s.toList, Record.ofJson? (f r.toJson) = some r) :
    RecordSet.ofJson? (f s.toJson) = some (.ofList s.toList) := by
  have hlist : listOf Record.ofJson? (f (.arr (s.toList.map Record.toJson))) =
      some (s.toList.map id) := listOf_arr hf hs
  rw [ofJson?, toJson, hlist, List.map_id, Option.map_some]

end RecordSet

theorem LanguageStats.ofJson?_toJson (hf : Rearranges f) (s : LanguageStats) :
    LanguageStats.ofJson? (f s.toJson) = some s := by
  obtain ⟨fields, hobj, hlookup⟩ : ∃ fields, f s.toJson = .obj fields ∧
      ∀ name, fields.lookup name = (s.toJson.get? name).map f := hf.obj (by simp)
  rw [hobj]
  simp [ofJson?, required, get?, hlookup, toJson, List.lookup_cons, natural, hf.int, nat?,
    Language.ofJson?_id hf]

theorem KeyFile.ofJson?_toJson (hf : Rearranges f) (k : KeyFile) :
    KeyFile.ofJson? (f k.toJson) = some k := by
  obtain ⟨fields, hobj, hlookup⟩ : ∃ fields, f k.toJson = .obj fields ∧
      ∀ name, fields.lookup name = (k.toJson.get? name).map f := hf.obj (by simp)
  have hscore : k.score.toNat < UInt32.size := k.score.toNat_lt_size
  rw [hobj]
  simp [ofJson?, required, get?, hlookup, toJson, List.lookup_cons, natural, hf.int, nat?, hf.str,
    str?, ofWord, word32?, hscore]

namespace TreeEntry

theorem fields_eq_map (entries : List (String × TreeEntry)) :
    fields entries = entries.map fun named => (named.1, named.2.toJson) := by
  induction entries with
  | nil => rfl
  | cons named rest ih => rw [fields, ih, List.map_cons, field]

theorem sorted_fields {entries : List (String × TreeEntry)} (h : Sorted entries)
    (hentries : ∀ named ∈ entries, named.2.toJson.Sorted) : (obj (fields entries)).Sorted := by
  rw [sorted_obj, fields_eq_map]
  refine ⟨List.pairwise_map.2 h, fun field hfield => ?_⟩
  obtain ⟨named, hnamed, rfl⟩ := List.mem_map.1 hfield
  exact hentries named hnamed

theorem sorted_toJson {e : TreeEntry} (h : e.Ordered) : e.toJson.Sorted := by
  induction e using ind with
  | hfile => simp [toJson]
  | hdirectory entries ih =>
    rw [Ordered, orderedAll_iff] at h
    rw [toJson]
    exact sorted_fields h.1 fun named hnamed => ih named hnamed (h.2 named hnamed)

theorem alter_of_forall_lt {name : String} {change : Option TreeEntry → TreeEntry}
    {entries : List (String × TreeEntry)} (h : ∀ named ∈ entries, name < named.1) :
    alter name change entries = (name, change none) :: entries := by
  cases entries with
  | nil => rfl
  | cons named rest => rw [alter, if_pos (h named List.mem_cons_self)]

theorem ofFields?_fields {entries : List (String × TreeEntry)} (h : Sorted entries)
    (hentries : ∀ named ∈ entries, TreeEntry.ofJson? named.2.toJson = some named.2) :
    ofFields? (fields entries) = some entries := by
  induction entries with
  | nil => rfl
  | cons named rest ih =>
    obtain ⟨name, e⟩ := named
    obtain ⟨hfirst, hrest⟩ := List.pairwise_cons.1 h
    have he := hentries (name, e) List.mem_cons_self
    have ih := ih hrest fun named hnamed => hentries named (List.mem_cons_of_mem _ hnamed)
    simp only [fields, field, ofFields?, ofField?, he, ih, alter_of_forall_lt hfirst,
      Option.getD_none]

theorem ofJson?_toJson {e : TreeEntry} (h : e.Ordered) : TreeEntry.ofJson? e.toJson = some e := by
  induction e using ind with
  | hfile => rw [toJson, ofJson?]
  | hdirectory entries ih =>
    rw [Ordered, orderedAll_iff] at h
    have hentries := fun named hnamed => ih named hnamed (h.2 named hnamed)
    rw [toJson, ofJson?, ofFields?_fields h.1 hentries, Option.map_some]

end TreeEntry

theorem DirectoryTree.ofJson?_toJson (hf : Rearranges f) (t : DirectoryTree) :
    DirectoryTree.ofJson? (f t.toJson) = some t := by
  obtain ⟨hsorted, hentries⟩ := TreeEntry.orderedAll_iff.1 t.ordered
  have hfields : TreeEntry.ofFields? (TreeEntry.fields t.entries) = some t.entries :=
    TreeEntry.ofFields?_fields hsorted fun named hnamed =>
      TreeEntry.ofJson?_toJson (hentries named hnamed)
  have hfix : f t.toJson = t.toJson :=
    hf.sorted (TreeEntry.sorted_fields hsorted fun named hnamed =>
      TreeEntry.sorted_toJson (hentries named hnamed))
  rw [hfix, toJson, ofJson?]
  split
  · rename_i entries h
    exact congrArg some (eq_of_entries (Option.some.inj (h.symm.trans hfields)))
  · rename_i h
    rw [hfields] at h
    contradiction

namespace Report

/-- A report is read from its JSON value, in whatever order the fields are, if its records are. -/
theorem ofJson?_toJson (hf : Rearranges f) {report : Report} {pushed : List Record}
    (hfiles : report.files = .ofList pushed)
    (hrecords : ∀ r ∈ report.files.toList, Record.ofJson? (f r.toJson) = some r) :
    Report.ofJson? (f report.toJson) = some report := by
  obtain ⟨fields, hobj, hget⟩ : ∃ fields, f report.toJson = .obj fields ∧
      ∀ name, fields.lookup name = (report.toJson.get? name).map f := hf.obj (by simp)
  have hset : RecordSet.ofJson? (f report.files.toJson) = some report.files := by
    rw [RecordSet.ofJson?_toJson hf hrecords, hfiles, RecordSet.ofList_toList_ofList]
  have hstats : listOf LanguageStats.ofJson? (f (.arr (report.languageStats.map (·.toJson)))) =
      some (report.languageStats.map id) :=
    listOf_arr hf fun s _ => LanguageStats.ofJson?_toJson hf s
  have hkeys : listOf KeyFile.ofJson? (f (.arr (report.keyFiles.map (·.toJson)))) =
      some (report.keyFiles.map id) :=
    listOf_arr hf fun k _ => KeyFile.ofJson?_toJson hf k
  rw [hobj]
  simp [ofJson?, required, get?, hget, toJson, List.lookup_cons, hset, hstats, hkeys,
    DirectoryTree.ofJson?_toJson hf, hf.str, str?, texts?, listOf_strings hf]

/-- Decoding takes back encoding. A record is decoded from its own JSON value exactly if no unit of
it has a parser's node type with the name of another kind, or a tree that is `null`; a report with
such records, pushed in any order and number, is decoded with its index and its directory tree; and
a record that was decoded from any value at all is decoded from its own. -/
theorem json_round_trip :
    (∀ r : Record, Record.ofJson? r.toJson = some r ↔ r.Storable) ∧
    (∀ (report : Report) (pushed : List Record), report.files = .ofList pushed →
      (∀ r ∈ report.files.toList, r.Storable) → Report.ofJson? report.toJson = some report) ∧
    ∀ (v : Json) (r : Record), Record.ofJson? v = some r → Record.ofJson? r.toJson = some r := by
  have hiff (r : Record) : Record.ofJson? r.toJson = some r ↔ r.Storable := by
    have hread : Record.ofJson? r.toJson = some r.asRead :=
      Record.ofJson?_toJson rearranges_id fun _ _ _ _ _ _ => rfl
    rw [hread, Option.some.injEq, Record.asRead_eq_iff]
  refine ⟨hiff, fun report pushed hfiles hstorable => ?_, fun v r h => ?_⟩
  · exact ofJson?_toJson rearranges_id hfiles fun r hr => (hiff r).2 (hstorable r hr)
  · exact (hiff r).2 (Record.storable_of_ofJson? h)

/-- A report on a file that was pushed twice and one that could not be read, and a record in an
unusual spelling. A parser's node type named like a kind is read as that kind. -/
theorem json_round_trip_pushed_twice :
    let loop (type : String) : Node :=
      ⟨.grammar type, "for (;;)", 2, none, some ⟨8, 19, 2, 0, 4, 1⟩, true,
        some (.obj [("type", .str "for_statement")])⟩
    let parsed (type : String) : Record :=
      .parsed "a.ts" .typeScript .grammar [loop type] (.ofSize 4 20)
    let unread : Record := .failed "b.ts" .typeScript (.unreadable "not found") .blank
    let report := ofRecords .standard (.ofList [parsed "for_statement", unread, parsed "if"])
    let v : Json := .obj [("metadata", .arr [.int 3, .int 40, .arr [], .arr [], .arr []]),
      ("language", .obj [("go", .null)]), ("error", .null), ("path", .str "a.go")]
    let r : Record := ⟨"a.go", .go, none, none, none, .ofSize 3 40⟩
    (∀ r ∈ report.files.toList, r.Storable) ∧ Report.ofJson? report.toJson = some report ∧
      Record.ofJson? v = some r ∧ Record.ofJson? r.toJson = some r ∧
      Record.ofJson? (parsed "Hook").toJson ≠ some (parsed "Hook") := by
  intro loop parsed unread report v r
  obtain ⟨hiff, hreport, hagain⟩ := json_round_trip
  have hparsed {type : String} (h : ∀ k ∈ NodeKind.named, type ≠ k.text) :
      (parsed type).Storable := by
    rintro nodes hnodes n hn
    cases hnodes
    rw [List.mem_singleton.1 hn]
    exact ⟨by simpa [loop] using h, by simp [loop]⟩
  have hstorable : ∀ r ∈ report.files.toList, r.Storable := by
    intro r hr
    have hr := RecordSet.mem_of_mem_ofList hr
    simp only [List.mem_cons, List.not_mem_nil, or_false] at hr
    rcases hr with rfl | rfl | rfl
    · exact hparsed (by decide)
    · intro nodes hnodes
      cases hnodes
    · exact hparsed (by decide)
  have hv : Record.ofJson? v = some r := rfl
  refine ⟨hstorable, hreport report _ rfl hstorable, hv, hagain v r hv, ?_⟩
  rw [ne_eq, hiff]
  intro h
  exact (h _ rfl _ List.mem_cons_self).kind .hook (by decide) rfl

end Report

end SourceAtlas
