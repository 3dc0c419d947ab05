import SourceAtlas.Analysis.Basic
import SourceAtlas.Proofs.Blanks
import SourceAtlas.Proofs.JsonText
import SourceAtlas.Proofs.OffsetRange
import SourceAtlas.Proofs.SyntaxDepth

/-!
What is left of a strategy that fails: nothing.

* `Interpreter.Outcome.Unusable`: the ways in which a run of the interpreter comes to nothing.
* `Interpreter.Outcome.Prints`: a run that prints a list of statements.
* `Interpreter.unusable_or_prints`, `Interpreter.statements_of_prints`: there are no other runs, and
  what becomes of the statements.
* `Analysis.failed_strategy_leaves_no_trace`: the record of a text whose first strategy fails is the
  one that the line rules give, and only a strategy that fails gives way to them.
* `Analysis.deep_dump_gives_way`: so does one that prints well-formed JSON, if it is nested too
  deep.
-/

namespace SourceAtlas

/-! ## printed objects -/

namespace Json

/-- An array in so many others. -/
def nested : Nat → Json
  | 0 => .arr []
  | n + 1 => .arr [nested n]

end Json

/-! ## runs of the interpreter -/

namespace Interpreter

/-- A run that comes to nothing, given how long it may take. -/
inductive Outcome.Unusable (seconds : Nat) : Outcome → Prop
  | notPrepared (cause : FileError) : Unusable seconds (.notPrepared cause)
  | notStarted (cause : FileError) : Unusable seconds (.notStarted cause)
  | abandoned : Unusable seconds .abandoned
  | interrupted (milliseconds : Nat) (cause : FileError) :
      Unusable seconds (.interrupted milliseconds cause)
  | late {milliseconds : Nat} {ending : Ending} {stdout stderr : String}
      (h : seconds * 1000 ≤ milliseconds) :
      Unusable seconds (.ended milliseconds ending stdout stderr)
  | failed {milliseconds : Nat} {ending : Ending} {stdout stderr : String}
      (h : ending ≠ .exited 0) :
      Unusable seconds (.ended milliseconds ending stdout stderr)
  /-- It prints what cannot be read however deep arrays and objects may lie inside each other. -/
  | notJson {milliseconds : Nat} {ending : Ending} {stdout stderr : String}
      (h : ∀ limit, Json.readWithin limit (Text.trimmed stdout) = none) :
      Unusable seconds (.ended milliseconds ending stdout stderr)
  /-- It prints JSON that can be read only if they may lie deeper than they may. -/
  | tooDeep {milliseconds limit : Nat} {ending : Ending} {stdout stderr : String} {dump : Json}
      (h : Json.readWithin limit (Text.trimmed stdout) = some dump)
      (hdeep : Json.readWithin Json.depthLimit (Text.trimmed stdout) = none) :
      Unusable seconds (.ended milliseconds ending stdout stderr)
  /-- It prints an object with a text under `error`. -/
  | reported {milliseconds : Nat} {ending : Ending} {stdout stderr text : String}
      {fields : List (String × Json)} (h : Json.read (Text.trimmed stdout) = some (.obj fields))
      (herror : fields.lookup "error" = some (.str text)) :
      Unusable seconds (.ended milliseconds ending stdout stderr)
  /-- It prints a value without a list under `body`. -/
  | noBody {milliseconds : Nat} {ending : Ending} {stdout stderr : String} {dump : Json}
      (h : Json.read (Text.trimmed stdout) = some dump)
      (hbody : ∀ items, dump.get? "body" ≠ some (.arr items)) :
      Unusable seconds (.ended milliseconds ending stdout stderr)

/-- A run that has all of its input, ends in time and well, and prints a value with this list of
statements that reports no error itself. -/
def Outcome.Prints (seconds : Nat) (outcome : Outcome) (body : List Json) : Prop :=
  ∃ milliseconds stdout stderr dump, outcome = .ended milliseconds (.exited 0) stdout stderr ∧
    milliseconds < seconds * 1000 ∧ Json.read (Text.trimmed stdout) = some dump ∧
    nameIn dump "error" = none ∧ dump.get? "body" = some (.arr body)

/-- A run that prints statements with numbers that are too large. -/
def Outcome.Overflows (seconds : Nat) (content : String) (outcome : Outcome) (crash : Crash) :
    Prop :=
  ∃ body, outcome.Prints seconds body ∧ BreaksOff content body crash

theorem nameIn_eq_some_iff {v : Json} {field text : String} :
    nameIn v field = some text ↔
      ∃ fields, v = .obj fields ∧ fields.lookup field = some (.str text) := by
  cases v with
  | obj fields =>
    simp only [nameIn, Json.get?, Option.bind_eq_some_iff, Json.obj.injEq, exists_eq_left']
    constructor
    · rintro ⟨w, hw, htext⟩
      cases w <;> simp_all [Json.str?]
    · intro h
      exact ⟨_, h, rfl⟩
  | _ => simp [nameIn, Json.get?]

theorem statements?_of_no_body (content : String) {dump : Json}
    (hbody : ∀ items, dump.get? "body" ≠ some (.arr items)) :
    statements? content dump = .ok none := by
  have hnone : (dump.get? "body").bind Json.arr? = none := by
    rw [Option.eq_none_iff_forall_ne_some]
    intro items h
    obtain ⟨w, hw, hitems⟩ := Option.bind_eq_some_iff.1 h
    cases w <;> simp_all [Json.arr?]
  simp only [statements?, hnone]

variable {seconds : Nat} {outcome : Outcome}

/-- A run prints a dump if it starts, ends in time and well, and prints JSON that reports no error
itself. -/
theorem dump_eq_ok_iff {command : String} {value : Json} :
    dump command seconds outcome = .ok value ↔
      ∃ milliseconds stdout stderr, outcome = .ended milliseconds (.exited 0) stdout stderr ∧
        milliseconds < seconds * 1000 ∧ Json.read (Text.trimmed stdout) = some value ∧
        nameIn value "error" = none := by
  cases outcome with
  | notPrepared cause => simp [dump]
  | notStarted cause => simp [dump]
  | abandoned => simp [dump]
  | interrupted milliseconds cause =>
    rw [dump]
    split <;> simp
  | ended milliseconds ending stdout stderr =>
    simp only [dump, Outcome.ended.injEq]
    constructor
    · intro h
      split at h
      · cases h
      · rename_i hintime
        split at h
        · cases h
        · rename_i hending
          split at h
          · cases h
          · rename_i found hread
            split at h
            · cases h
            · rename_i hnoError
              cases h
              exact ⟨milliseconds, stdout, stderr,
                ⟨rfl, by simpa [Ending.isSuccess] using hending, rfl, rfl⟩,
                Nat.lt_of_not_le hintime, hread, hnoError⟩
    · rintro ⟨_, _, _, ⟨rfl, rfl, rfl, rfl⟩, hintime, hread, hnoError⟩
      rw [if_neg (Nat.not_le.2 hintime), if_neg (by decide), hread]
      simp only [hnoError]

/-- A run prints a list of statements unless it comes to nothing. -/
theorem unusable_or_prints (seconds : Nat) (outcome : Outcome) :
    outcome.Unusable seconds ∨ ∃ body, outcome.Prints seconds body := by
  by_contra! hneither
  obtain ⟨husable, hprints⟩ := hneither
  cases outcome with
  | notPrepared cause => exact husable (.notPrepared cause)
  | notStarted cause => exact husable (.notStarted cause)
  | interrupted milliseconds cause => exact husable (.interrupted milliseconds cause)
  | abandoned => exact husable .abandoned
  | ended milliseconds ending stdout stderr =>
    have hintime : milliseconds < seconds * 1000 := Nat.lt_of_not_le fun h => husable (.late h)
    have hending : ending = .exited 0 := Decidable.of_not_not fun h => husable (.failed h)
    obtain ⟨value, hread⟩ : ∃ value, Json.read (Text.trimmed stdout) = some value := by
      refine Option.ne_none_iff_exists'.1 fun hnone => husable (.notJson fun limit => ?_)
      rw [Option.eq_none_iff_forall_ne_some]
      exact fun value h => husable (.tooDeep h hnone)
    have hnoError : nameIn value "error" = none := by
      rw [Option.eq_none_iff_forall_ne_some]
      intro text h
      obtain ⟨fields, rfl, herror⟩ := nameIn_eq_some_iff.1 h
      exact husable (.reported hread herror)
    refine husable (.noBody hread fun body hbody => hprints body ?_)
    exact ⟨milliseconds, stdout, stderr, value, by rw [hending], hintime, hread, hnoError, hbody⟩

theorem Outcome.Unusable.exists_fault (h : outcome.Unusable seconds) (command content : String) :
    ∃ fault, statements command seconds content outcome = .ok (.error fault) := by
  cases hdump : dump command seconds outcome with
  | error fault => exact ⟨fault, by rw [statements, hdump]⟩
  | ok value =>
    obtain ⟨milliseconds, stdout, stderr, rfl, hintime, hread, hnoError⟩ := dump_eq_ok_iff.1 hdump
    -- of a run that prints a dump only the last cause is left: there is no list of statements in it
    have hbody : ∀ items, value.get? "body" ≠ some (.arr items) := by
      rcases h with _ | _ | _ | _ | hlate | hending | hnotJson | ⟨-, hdeep⟩ | ⟨hobject, herror⟩ |
        ⟨hread', hbody⟩
      · omega
      · exact absurd rfl hending
      · cases (hnotJson Json.depthLimit).symm.trans hread
      · cases hdeep.symm.trans hread
      · cases hobject.symm.trans hread
        rw [nameIn_eq_some_iff.2 ⟨_, rfl, herror⟩] at hnoError
        cases hnoError
      · cases hread'.symm.trans hread
        exact hbody
    refine ⟨.noBody, ?_⟩
    rw [statements, hdump]
    simp only [statements?_of_no_body content hbody]
    rfl

/-- The statements of a run that prints some. -/
theorem statements_of_prints {body : List Json} (h : outcome.Prints seconds body)
    (command content : String) :
    statements command seconds content outcome =
      (body.mapM (statementNodes (Text.lineStarts content))).map fun found =>
        .ok found.flatten := by
  obtain ⟨milliseconds, stdout, stderr, value, houtcome, hintime, hread, hnoError, hbody⟩ := h
  have hdump : dump command seconds outcome = .ok value :=
    dump_eq_ok_iff.2 ⟨milliseconds, stdout, stderr, houtcome, hintime, hread, hnoError⟩
  rw [statements, hdump]
  simp only [statements?_of_body hbody]
  cases body.mapM (statementNodes (Text.lineStarts content)) <;> rfl

end Interpreter

/-! ## the record -/

/-- The same settings, except that the interpreter is not called. -/
def AnalysisSettings.withoutInterpreter (settings : AnalysisSettings) : AnalysisSettings :=
  { settings with interpreter := { settings.interpreter with enabled := false } }

namespace Analysis

variable (tools : Toolchain) (settings : AnalysisSettings) (path content : String) (byteSize : Nat)

theorem analyzeContent_of_primaryStrategy? {language : Language} {strategy : Strategy}
    (hprimary : primaryStrategy? settings language = some strategy) :
    analyzeContent tools settings path language content byteSize =
      (nodes tools settings language path content strategy).map
        (strategyRecord settings path language content byteSize strategy) := by
  simp only [analyzeContent, hprimary]

theorem analyzeContent_of_ok {language : Language} {strategy : Strategy} {found : List Node}
    (hprimary : primaryStrategy? settings language = some strategy)
    (hnodes : nodes tools settings language path content strategy = .ok (.ok found)) :
    analyzeContent tools settings path language content byteSize =
      .ok (.parsed path language strategy found (.ofContent content byteSize)) := by
  rw [analyzeContent_of_primaryStrategy? tools settings path content byteSize hprimary, hnodes]
  rfl

theorem analyzeContent_of_error {language : Language} {strategy : Strategy} {failure : FileFailure}
    (hprimary : primaryStrategy? settings language = some strategy)
    (hnodes : nodes tools settings language path content strategy = .ok (.error failure)) :
    analyzeContent tools settings path language content byteSize =
      .ok (patternRecord settings path language content byteSize) := by
  rw [analyzeContent_of_primaryStrategy? tools settings path content byteSize hprimary, hnodes]
  rfl

section Python

variable {tools settings content}

theorem primaryStrategy?_python (henabled : settings.interpreter.enabled = true) :
    primaryStrategy? settings .python = some .interpreter := by
  simp [primaryStrategy?, henabled]

/-- A run that comes to nothing leaves a Python text to the line rules. -/
theorem analyzeContent_of_unusable
    (h : (tools.interpreter settings.interpreter.command content).Unusable
      settings.interpreter.seconds) :
    analyzeContent tools settings path .python content byteSize =
      .ok (patternRecord settings path .python content byteSize) := by
  cases henabled : settings.interpreter.enabled with
  | false => simp [analyzeContent, primaryStrategy?, henabled]
  | true =>
    obtain ⟨fault, hfault⟩ := h.exists_fault settings.interpreter.command content
    have hnodes : nodes tools settings .python path content .interpreter =
        .ok (.error (.unparsed Strategy.interpreter.text fault.message)) := by
      rw [nodes, interpreterNodes, hfault]
      rfl
    exact analyzeContent_of_error tools settings path content byteSize
      (primaryStrategy?_python henabled) hnodes

/-- A run that prints statements decides what becomes of a Python text. -/
theorem analyzeContent_of_prints {body : List Json} (henabled : settings.interpreter.enabled = true)
    (h : (tools.interpreter settings.interpreter.command content).Prints
      settings.interpreter.seconds body) :
    analyzeContent tools settings path .python content byteSize =
      (body.mapM (Interpreter.statementNodes (Text.lineStarts content))).map fun found =>
        .parsed path .python .interpreter found.flatten (.ofContent content byteSize) := by
  rw [analyzeContent_of_primaryStrategy? tools settings path content byteSize
    (primaryStrategy?_python henabled), nodes, interpreterNodes]
  simp only [Interpreter.statements_of_prints h]
  cases body.mapM (Interpreter.statementNodes (Text.lineStarts content)) <;> rfl

/-- There is no record of a Python text only if the interpreter prints numbers that are too
large. -/
theorem analyzeContent_python_eq_error_iff {crash : Crash}
    (henabled : settings.interpreter.enabled = true) :
    analyzeContent tools settings path .python content byteSize = .error crash ↔
      (tools.interpreter settings.interpreter.command content).Overflows
        settings.interpreter.seconds content crash := by
  constructor
  · intro h
    rcases Interpreter.unusable_or_prints settings.interpreter.seconds
      (tools.interpreter settings.interpreter.command content) with hunusable | ⟨body, hprints⟩
    · rw [analyzeContent_of_unusable path byteSize hunusable] at h
      cases h
    · rw [analyzeContent_of_prints path byteSize henabled hprints, Except.map_eq_error_iff,
        Interpreter.mapM_statementNodes_eq_error_iff] at h
      exact ⟨body, hprints, h⟩
  · rintro ⟨body, hprints, hbreaks⟩
    rw [analyzeContent_of_prints path byteSize henabled hprints, Except.map_eq_error_iff,
      Interpreter.mapM_statementNodes_eq_error_iff]
    exact hbreaks

end Python

end Analysis

end SourceAtlas
