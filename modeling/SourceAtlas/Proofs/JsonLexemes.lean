import SourceAtlas.Json.Reader
import SourceAtlas.Proofs.JsonValues

/-!
Values as sequences of lexemes.

* `Json.tokens`: the lexemes that spell a value.
* `Json.run_tokens`: a run over them completes the value with its fields sorted, unless it lies too
  deep.
* `Json.sorted_of_read`: whatever is read has its fields sorted.
-/

namespace SourceAtlas.Json

/-! ## nesting -/

theorem nestingItems_le_iff {items : List Json} {n : Nat} :
    nestingItems items ≤ n ↔ ∀ v ∈ items, v.nesting ≤ n := by
  induction items with
  | nil => simp [nestingItems]
  | cons v items ih => rw [nestingItems, Nat.max_le, ih, List.forall_mem_cons]

theorem nestingFields_le_iff {fields : List (String × Json)} {n : Nat} :
    nestingFields fields ≤ n ↔ ∀ field ∈ fields, field.2.nesting ≤ n := by
  induction fields with
  | nil => simp [nestingFields]
  | cons field fields ih =>
    rw [nestingFields, Nat.max_le, ih, List.forall_mem_cons, nestingField]

theorem nesting_arr_le_iff {items : List Json} {n : Nat} :
    (arr items).nesting ≤ n + 1 ↔ ∀ v ∈ items, v.nesting ≤ n := by
  rw [nesting, Nat.add_le_add_iff_right, nestingItems_le_iff]

theorem nesting_obj_le_iff {fields : List (String × Json)} {n : Nat} :
    (obj fields).nesting ≤ n + 1 ↔ ∀ field ∈ fields, field.2.nesting ≤ n := by
  rw [nesting, Nat.add_le_add_iff_right, nestingFields_le_iff]

/-! ## the lexemes of a value -/

mutual

/-- The lexemes that spell a value. -/
def tokens : Json → List Lexeme
  | .arr [] => [.openArray, .closeArray]
  | .arr (v :: vs) => .openArray :: (tokens v ++ moreItems vs)
  | .obj [] => [.openObject, .closeObject]
  | .obj (field :: fields) => .openObject :: (tokensOfField field ++ moreFields fields)
  | v => [.value v]

/-- The items after the first, and the end of the array. -/
def moreItems : List Json → List Lexeme
  | [] => [.closeArray]
  | v :: vs => .comma :: (tokens v ++ moreItems vs)

/-- The fields after the first, and the end of the object. -/
def moreFields : List (String × Json) → List Lexeme
  | [] => [.closeObject]
  | field :: fields => .comma :: (tokensOfField field ++ moreFields fields)

def tokensOfField : String × Json → List Lexeme
  | (name, v) => .value (.str name) :: .colon :: tokens v

end

/-- A run over the lexemes of a value, where one may stand, completes it if it does not lie too
deep. -/
def Runs (limit : Nat) (v : Json) : Prop :=
  ∀ (stack : List Frame) (expect : Expect) (rest : List Lexeme), stack.length ≤ limit →
    expect = .value ∨ expect = .item →
    run limit ⟨stack, expect⟩ (v.tokens ++ rest) =
      if stack.length + v.nesting ≤ limit then run limit (complete v.canonical stack) rest else none

theorem add_max_le_iff {m a b n : Nat} : m + max a b ≤ n ↔ m + a ≤ n ∧ m + b ≤ n := by omega

theorem run_moreItems {limit : Nat} {items : List Json} (ih : ∀ v ∈ items, Runs limit v)
    {stack : List Frame} (hstack : stack.length < limit) (done : List Json) (rest : List Lexeme) :
    run limit ⟨stack, .nextItem done⟩ (moreItems items ++ rest) =
      if stack.length + 1 + nestingItems items ≤ limit then
        run limit (complete (.arr (done.reverse ++ items.map canonical)) stack) rest
      else none := by
  induction items generalizing done with
  | nil =>
    have hlimit : stack.length + 1 ≤ limit := hstack
    simp [moreItems, run, step, nestingItems, hlimit]
  | cons v items ihitems =>
    have hcomma : run limit ⟨stack, .nextItem done⟩ (moreItems (v :: items) ++ rest) =
        run limit ⟨.items done :: stack, .value⟩ (v.tokens ++ (moreItems items ++ rest)) := by
      simp [moreItems, run, step]
    rw [hcomma, ih v List.mem_cons_self (.items done :: stack) _ _ hstack (Or.inl rfl), complete,
      ihitems fun w hw => ih w (List.mem_cons_of_mem _ hw)]
    simp only [nestingItems, add_max_le_iff, ite_and, List.length_cons, List.reverse_cons,
      List.append_assoc, List.singleton_append, List.map_cons]

theorem run_moreFields {limit : Nat} {fields : List (String × Json)}
    (ih : ∀ field ∈ fields, Runs limit field.2) {stack : List Frame} (hstack : stack.length < limit)
    (done : List (String × Json)) (rest : List Lexeme) :
    run limit ⟨stack, .nextField done⟩ (moreFields fields ++ rest) =
      if stack.length + 1 + nestingFields fields ≤ limit then
        run limit (complete (.obj (setFields done
          (fields.map fun field => (field.1, field.2.canonical)))) stack) rest
      else none := by
  induction fields generalizing done with
  | nil =>
    have hlimit : stack.length + 1 ≤ limit := hstack
    simp [moreFields, run, step, nestingFields, setFields, hlimit]
  | cons field fields ihfields =>
    obtain ⟨name, v⟩ := field
    have hcomma : run limit ⟨stack, .nextField done⟩ (moreFields ((name, v) :: fields) ++ rest) =
        run limit ⟨.fields done name :: stack, .value⟩
          (v.tokens ++ (moreFields fields ++ rest)) := by
      simp [moreFields, tokensOfField, run, step]
    rw [hcomma,
      ih (name, v) List.mem_cons_self (.fields done name :: stack) _ _ hstack (Or.inl rfl),
      complete, ihfields fun other hother => ih other (List.mem_cons_of_mem _ hother)]
    simp only [nestingFields, nestingField, add_max_le_iff, ite_and, List.length_cons,
      List.map_cons, setFields, List.foldl_cons]

theorem run_openArray {limit : Nat} {stack : List Frame} {expect : Expect}
    (hexpect : expect = .value ∨ expect = .item) (rest : List Lexeme) :
    run limit ⟨stack, expect⟩ (.openArray :: rest) =
      if stack.length < limit then run limit ⟨.items [] :: stack, .item⟩ rest else none := by
  by_cases hlimit : stack.length < limit <;> rcases hexpect with rfl | rfl <;>
    simp [run, step, step.openArray, hlimit]

theorem run_openObject {limit : Nat} {stack : List Frame} {expect : Expect}
    (hexpect : expect = .value ∨ expect = .item) (rest : List Lexeme) :
    run limit ⟨stack, expect⟩ (.openObject :: rest) =
      if stack.length < limit then run limit ⟨stack, .name [] true⟩ rest else none := by
  by_cases hlimit : stack.length < limit <;> rcases hexpect with rfl | rfl <;>
    simp [run, step, step.openObject, hlimit]

/-- The lexemes of a value are read as its canonical form, if it does not lie too deep. -/
theorem run_tokens (limit : Nat) (v : Json) : Runs limit v := by
  induction v using ind with
  | arr items ih =>
    intro stack expect rest hstack hexpect
    by_cases hlimit : stack.length < limit
    · cases items with
      | nil =>
        have hdeep : stack.length + (arr []).nesting ≤ limit := hlimit
        simp [tokens, run_openArray hexpect, run, step, hlimit, hdeep]
      | cons v items =>
        have hdeep : stack.length + (arr (v :: items)).nesting ≤ limit ↔
            stack.length + 1 + v.nesting ≤ limit ∧
              stack.length + 1 + nestingItems items ≤ limit := by
          rw [nesting, nestingItems]
          omega
        rw [tokens, List.cons_append, run_openArray hexpect, if_pos hlimit, List.append_assoc,
          ih v List.mem_cons_self (.items [] :: stack) _ _ hlimit (Or.inr rfl), complete,
          run_moreItems (fun w hw => ih w (List.mem_cons_of_mem _ hw)) hlimit]
        simp [hdeep, ite_and]
    · have hdeep : ¬stack.length + (arr items).nesting ≤ limit := by
        rw [nesting]
        omega
      cases items <;> simp [tokens, run_openArray hexpect, hlimit, hdeep]
  | obj fields ih =>
    intro stack expect rest hstack hexpect
    by_cases hlimit : stack.length < limit
    · cases fields with
      | nil =>
        have hdeep : stack.length + (obj []).nesting ≤ limit := hlimit
        simp [tokens, run_openObject hexpect, run, step, hlimit, hdeep, setFields]
      | cons field fields =>
        obtain ⟨name, v⟩ := field
        have hdeep : stack.length + (obj ((name, v) :: fields)).nesting ≤ limit ↔
            stack.length + 1 + v.nesting ≤ limit ∧
              stack.length + 1 + nestingFields fields ≤ limit := by
          rw [nesting, nestingFields, nestingField]
          omega
        have hname (more : List Lexeme) :
            run limit ⟨stack, .name [] true⟩ (tokensOfField (name, v) ++ more) =
              run limit ⟨.fields [] name :: stack, .value⟩ (v.tokens ++ more) := by
          simp [tokensOfField, run, step]
        rw [tokens, List.cons_append, run_openObject hexpect, if_pos hlimit, List.append_assoc,
          hname, ih (name, v) List.mem_cons_self (.fields [] name :: stack) _ _ hlimit (Or.inl rfl),
          complete, run_moreFields (fun w hw => ih w (List.mem_cons_of_mem _ hw)) hlimit]
        simp [hdeep, ite_and, setFields]
    · have hdeep : ¬stack.length + (obj fields).nesting ≤ limit := by
        rw [nesting]
        omega
      cases fields <;> simp [tokens, run_openObject hexpect, hlimit, hdeep]
  | _ =>
    rintro stack expect rest hstack (rfl | rfl) <;>
      simp [tokens, run, step, nesting, canonical, hstack]

/-! ## what is read is sorted -/

def Lexeme.Sorted : Lexeme → Prop
  | .value v => v.Sorted
  | _ => True

def Frame.Sorted : Frame → Prop
  | .items done => ∀ v ∈ done, v.Sorted
  | .fields done _ => (obj done).Sorted

def Expect.Sorted : Expect → Prop
  | .nextItem done => ∀ v ∈ done, v.Sorted
  | .name done _ | .colon done _ | .nextField done => (obj done).Sorted
  | .nothing v => v.Sorted
  | _ => True

/-- All that has been read is sorted. -/
structure State.Sorted (s : State) : Prop where
  stack : ∀ frame ∈ s.stack, frame.Sorted
  expect : s.expect.Sorted

theorem sorted_setField {name : String} {v : Json} {fields : List (String × Json)}
    (hv : v.Sorted) (hfields : (obj fields).Sorted) : (obj (setField name v fields)).Sorted := by
  rw [sorted_obj] at hfields ⊢
  refine ⟨increasing_setField hfields.1, fun field hfield => ?_⟩
  rcases mem_setField hfield with rfl | hfield
  · exact hv
  · exact hfields.2 field hfield

theorem sorted_complete {v : Json} {stack : List Frame} (hv : v.Sorted)
    (hstack : ∀ frame ∈ stack, frame.Sorted) : (complete v stack).Sorted := by
  cases stack with
  | nil => exact ⟨hstack, hv⟩
  | cons frame stack =>
    obtain ⟨hframe, hbelow⟩ := List.forall_mem_cons.1 hstack
    cases frame with
    | items done => exact ⟨hbelow, List.forall_mem_cons.2 ⟨hv, hframe⟩⟩
    | fields done name => exact ⟨hbelow, sorted_setField hv hframe⟩

/-- A step keeps what has been read sorted. -/
theorem sorted_step {limit : Nat} {s s' : State} {lexeme : Lexeme} (hs : s.Sorted)
    (hlexeme : lexeme.Sorted) (h : step limit s lexeme = some s') : s'.Sorted := by
  obtain ⟨hstack, hexpect⟩ := hs
  have hempty : (obj []).Sorted := sorted_obj.2 ⟨List.Pairwise.nil, by simp⟩
  have hpush {frame : Frame} (hframe : frame.Sorted) : ∀ other ∈ frame :: s.stack, other.Sorted :=
    List.forall_mem_cons.2 ⟨hframe, hstack⟩
  have hitems {done : List Json} (h : ∀ v ∈ done, v.Sorted) : (arr done.reverse).Sorted :=
    sorted_arr.2 fun v hv => h v (List.mem_reverse.1 hv)
  unfold step at h
  split at h <;> rename_i heq
  -- a value
  · cases h
    exact sorted_complete hlexeme hstack
  · cases h
    exact sorted_complete hlexeme hstack
  -- the beginning of an array or object
  · simp only [step.openArray, Option.ite_none_right_eq_some, Option.some.injEq] at h
    exact h.2 ▸ ⟨hpush (by simp [Frame.Sorted]), trivial⟩
  · simp only [step.openArray, Option.ite_none_right_eq_some, Option.some.injEq] at h
    exact h.2 ▸ ⟨hpush (by simp [Frame.Sorted]), trivial⟩
  · simp only [step.openObject, Option.ite_none_right_eq_some, Option.some.injEq] at h
    exact h.2 ▸ ⟨hstack, hempty⟩
  · simp only [step.openObject, Option.ite_none_right_eq_some, Option.some.injEq] at h
    exact h.2 ▸ ⟨hstack, hempty⟩
  -- the inside and the end of an array
  · cases h
    exact sorted_complete (sorted_arr.2 (by simp)) fun frame hframe =>
      hstack frame (List.mem_of_mem_drop hframe)
  · rw [heq] at hexpect
    cases h
    exact ⟨hpush hexpect, trivial⟩
  · rw [heq] at hexpect
    cases h
    exact sorted_complete (hitems hexpect) hstack
  -- the inside and the end of an object
  · rw [heq] at hexpect
    cases h
    exact ⟨hstack, hexpect⟩
  · rw [heq] at hexpect
    cases h
    exact sorted_complete hexpect hstack
  · rw [heq] at hexpect
    cases h
    exact ⟨hpush hexpect, trivial⟩
  · rw [heq] at hexpect
    cases h
    exact ⟨hstack, hexpect⟩
  · rw [heq] at hexpect
    cases h
    exact sorted_complete hexpect hstack
  · contradiction

theorem sorted_run {limit : Nat} {lexemes : List Lexeme} {s s' : State} (hs : s.Sorted)
    (hlexemes : ∀ lexeme ∈ lexemes, lexeme.Sorted) (h : run limit s lexemes = some s') :
    s'.Sorted := by
  induction lexemes generalizing s with
  | nil => exact Option.some.inj h ▸ hs
  | cons lexeme lexemes ih =>
    obtain ⟨hfirst, hrest⟩ := List.forall_mem_cons.1 hlexemes
    rw [run] at h
    split at h
    · contradiction
    · rename_i next hstep
      exact ih (sorted_step hs hfirst hstep) hrest h

theorem sorted_value {n : Numeral} {v : Json} (h : n.value = some v) : v.Sorted := by
  have happrox {negative : Bool} {significand : Nat} {exponent : Int}
      (h : Numeral.approximate negative significand exponent = some v) : v.Sorted := by
    obtain ⟨x, -, rfl⟩ := Option.map_eq_some_iff.1 h
    exact sorted_float _
  unfold Numeral.value at h
  dsimp only at h
  split at h
  · split at h
    · cases h
      exact sorted_int _
    · split at h
      · cases h
        exact sorted_int _
      · exact happrox h
  · split at h
    · exact happrox h
    · split at h
      · split at h
        · contradiction
        · cases h
          exact sorted_float _
      · exact happrox h

theorem sorted_close {mode : Mode} {found : List Lexeme} (h : close mode = some found) :
    ∀ lexeme ∈ found, lexeme.Sorted := by
  cases mode with
  | between =>
    cases h
    simp
  | number done =>
    obtain ⟨v, hv, rfl⟩ := Option.map_eq_some_iff.1 h
    obtain ⟨n, -, hn⟩ := Option.bind_eq_some_iff.1 hv
    simpa [Lexeme.Sorted] using sorted_value hn
  | word done =>
    obtain ⟨v, hv, rfl⟩ := Option.map_eq_some_iff.1 h
    have hwords : ∀ entry ∈ [("null", Json.null), ("true", .bool true), ("false", .bool false)],
        entry.2.Sorted := by
      simp
    obtain ⟨before, after, hsplit, -⟩ := List.lookup_eq_some_iff.1 hv
    have hv : v.Sorted := hwords (String.ofList done.reverse, v) (by simp [hsplit])
    simpa [Lexeme.Sorted] using hv
  | _ => contradiction

theorem sorted_beginning {c : Char} {next : Mode} {found : List Lexeme}
    (h : beginning c = some (found, next)) : ∀ lexeme ∈ found, lexeme.Sorted := by
  unfold beginning at h
  repeat' split at h
  all_goals cases h
  all_goals simp [Lexeme.Sorted]

theorem sorted_advance {mode next : Mode} {c : Char} {found : List Lexeme}
    (h : advance mode c = some (found, next)) : ∀ lexeme ∈ found, lexeme.Sorted := by
  have hafter (h : advance.afterToken mode c = some (found, next)) :
      ∀ lexeme ∈ found, lexeme.Sorted := by
    unfold advance.afterToken at h
    split at h
    · rename_i before after following hclose hbeginning
      cases h
      intro lexeme hlexeme
      rcases List.mem_append.1 hlexeme with hlexeme | hlexeme
      · exact sorted_close hclose lexeme hlexeme
      · exact sorted_beginning hbeginning lexeme hlexeme
    · contradiction
  unfold advance at h
  split at h
  · exact sorted_beginning h
  · repeat' split at h
    all_goals cases h
    all_goals simp [Lexeme.Sorted]
  · split at h
    · cases h
      simp
    · obtain ⟨e, -, he⟩ := Option.map_eq_some_iff.1 h
      cases he
      simp
  · split at h
    · contradiction
    · dsimp only at h
      split at h
      · obtain ⟨mode, -, hmode⟩ := Option.map_eq_some_iff.1 h
        cases hmode
        simp
      · cases h
        simp
  · repeat' split at h
    all_goals cases h
    all_goals simp
  · split at h
    · cases h
      simp
    · exact hafter h
  · split at h
    · cases h
      simp
    · exact hafter h

theorem sorted_lexFrom {cs : List Char} {mode : Mode} {found : List Lexeme}
    (h : lexFrom mode cs = some found) : ∀ lexeme ∈ found, lexeme.Sorted := by
  induction cs generalizing mode found with
  | nil => exact sorted_close h
  | cons c cs ih =>
    rw [lexFrom] at h
    split at h
    · contradiction
    · rename_i first next hadvance
      obtain ⟨rest, hrest, rfl⟩ := Option.map_eq_some_iff.1 h
      intro lexeme hlexeme
      rcases List.mem_append.1 hlexeme with hlexeme | hlexeme
      · exact sorted_advance hadvance lexeme hlexeme
      · exact ih hrest lexeme hlexeme

/-- Whatever is read has its fields sorted. -/
theorem sorted_of_read {text : String} {v : Json} (h : read text = some v) : v.Sorted := by
  rw [read, readWithin] at h
  split at h
  · rename_i stack w hrun
    obtain ⟨lexemes, hlex, hrun⟩ := Option.bind_eq_some_iff.1 hrun
    cases h
    have hstart : State.Sorted ⟨[], .value⟩ := ⟨by simp, trivial⟩
    exact (sorted_run hstart (sorted_lexFrom hlex) hrun).expect
  · contradiction

end SourceAtlas.Json
