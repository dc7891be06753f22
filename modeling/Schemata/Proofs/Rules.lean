import Schemata.Proofs.Closed
import Schemata.Proofs.Contract
import Schemata.Rule.Builtin
/-!
What rules become, and how they fail.

The path of a rule shows up in its errors and nowhere else. A rule fails with an error that refuses
the rule, or upon a defect; a defect has one of three sources, the versions of an address, a template,
or an integer with too many digits. The templates of the rules that are supported from the start are
all sound.

Component: the forms of rules, `RuleForm.emit`, and the rules supported from the start. Main
results:
- `RuleForm.emit_adds` — a form adds the method calls of the rule to the code it is given;
- `RuleForm.calls_failsWell` — a rule is refused, or it meets a defect of its form;
- `applyRules_eq` — the forms add their calls one after the other.
-/

namespace Schemata

def CompileError.moveTo (path : Path) (e : CompileError) : CompileError := { e with path := path }

def Failure.moveTo (path : Path) : Failure → Failure
  | rejected e => rejected (e.moveTo path)
  | defect d => defect d

/-- All errors of a check are refusals, and spell none but the given values. -/
def Checked.Refuses {α : Type} (values : List Value) (c : Checked α) : Prop :=
  ∀ e, c = .error e → e.cause.isRefusal = true ∧ ∀ v ∈ e.cause.values, v ∈ values

namespace Checked

variable {α β : Type} {values : List Value}

theorem refuses_ok (a : α) : Refuses values (.ok a : Checked α) := fun e h => by cases h

theorem refuses_malformed {m : Malformation} {path : Path} (h : ∀ v ∈ m.values, v ∈ values) :
    Refuses values (malformed m path : Checked α) := by
  rintro e ⟨⟩
  exact ⟨rfl, h⟩

theorem refuses_unsupported {feature : Feature} {path : Path} (h : feature.values = []) :
    Refuses values (unsupported feature path : Checked α) := by
  rintro e ⟨⟩
  exact ⟨rfl, by simp [Cause.values, h]⟩

/-- A check as a step of writing ends with a refusal, or upon a value that cannot be spelled. -/
theorem Refuses.toWritten {c : Checked α} (h : Refuses values c) {failure : Failure}
    (hf : c.toWritten = .error failure) :
    (∃ e : CompileError, e.cause.isRefusal = true ∧ failure = .rejected e) ∨
      failure = .defect .longInteger ∧ ∃ v ∈ values, v.hasLongInteger = true := by
  obtain ⟨e, he, rfl⟩ := Outcome.toWritten_error.1 hf
  obtain ⟨hrefusal, hvalues⟩ := h e he
  unfold Failure.ofError
  split
  · exact .inl ⟨e, hrefusal, rfl⟩
  · rename_i hspelled
    obtain ⟨v, hv, hlong⟩ : ∃ v ∈ e.cause.values, v.hasLongInteger = true := by
      simpa [Cause.isSpelled] using hspelled
    exact .inr ⟨rfl, v, hvalues v hv, hlong⟩

/-- A check that spells nothing only ends with refusals. -/
theorem Refuses.rejected {c : Checked α} (h : Refuses [] c) {failure : Failure}
    (hf : c.toWritten = .error failure) :
    ∃ e : CompileError, e.cause.isRefusal = true ∧ failure = .rejected e := by
  rcases h.toWritten hf with he | ⟨-, v, hv, -⟩
  · exact he
  · cases hv

end Checked

/-- The only thing that keeps a number from being written is its digits. -/
theorem Value.toLiteral_number {v : Value} (hv : (v.isNumber || v.text?.isSome) = true)
    {failure : Failure} (h : v.toLiteral = .error failure) :
    failure = .defect .longInteger ∧ v.hasLongInteger = true := by
  cases v with
  | int n =>
    simp only [toLiteral, unwritable?] at h
    split at h
    · cases h
    · rename_i d hd
      cases h
      split at hd
      · rename_i hlong
        cases hd
        exact ⟨rfl, hlong⟩
      · cases hd
  | float x => cases h
  | decimal d => cases h
  | str s => cases h
  | _ => cases hv

namespace Rule

/-! ## Numeric arguments -/

theorem numberArgument_refuses (rule : Rule) (path : Path) (i : Nat) :
    Checked.Refuses rule.args[i]?.toList (rule.numberArgument path i) := by
  unfold numberArgument
  split
  · exact Checked.refuses_malformed (by simp [Malformation.values])
  · rename_i v hv
    split
    · exact Checked.refuses_malformed (by simp [Malformation.values, hv])
    · split
      · exact Checked.refuses_malformed (by simp [Malformation.values, hv])
      · exact Checked.refuses_ok _

theorem checkExtra_refuses (rule : Rule) (path : Path) (arity : Nat) :
    Checked.Refuses [] (rule.checkExtra path arity) := by
  unfold checkExtra
  split
  · exact Checked.refuses_malformed (by simp [Malformation.values])
  · exact Checked.refuses_ok _

theorem numberArgument_ok {rule : Rule} {path : Path} {i : Nat} {v : Value}
    (h : rule.numberArgument path i = .ok v) :
    rule.args[i]? = some v ∧ v.isNumber = true ∧ v.isFinite = true := by
  unfold numberArgument at h
  split at h
  · cases h
  · rename_i hv
    split at h
    · cases h
    · rename_i hnumber
      split at h
      · cases h
      · rename_i hfinite
        cases h
        exact ⟨hv, by simpa using hnumber, by simpa using hfinite⟩

theorem numberLiteral_ok {rule : Rule} {path : Path} {i : Nat} {v : Value}
    (h : rule.numberLiteral path i = .ok v) :
    rule.args[i]? = some v ∧ v.isNumber = true ∧ v.isFinite = true ∧ v.toLiteral = .ok () := by
  obtain ⟨w, hw, h⟩ := Outcome.bind_ok.1 h
  obtain ⟨_, hliteral, h⟩ := Outcome.bind_ok.1 h
  cases h
  obtain ⟨hget, hnumber, hfinite⟩ := numberArgument_ok (Outcome.toWritten_ok.1 hw)
  exact ⟨hget, hnumber, hfinite, hliteral⟩

/-- The arguments that a rule hands on are finite numbers. -/
theorem numberLiterals_ok {rule : Rule} {path : Path} {arity : Nat} {args : List Value}
    (h : rule.numberLiterals path arity = .ok args) :
    ∀ v ∈ args, v.isNumber = true ∧ v.isFinite = true := by
  obtain ⟨checked, hchecked, h⟩ := Outcome.bind_ok.1 h
  obtain ⟨-, -, h⟩ := Outcome.bind_ok.1 h
  cases h
  intro v hv
  obtain ⟨i, -, hi⟩ := Outcome.mapM_ok_mem hchecked v hv
  obtain ⟨-, hnumber, hfinite, -⟩ := numberLiteral_ok hi
  exact ⟨hnumber, hfinite⟩

/-- An argument is refused, or it has too many digits. -/
theorem numberLiteral_error {rule : Rule} {path : Path} {i : Nat} {failure : Failure}
    (h : rule.numberLiteral path i = .error failure) :
    (∃ e : CompileError, e.cause.isRefusal = true ∧ failure = .rejected e) ∨
      failure = .defect .longInteger ∧ ∃ v, rule.args[i]? = some v ∧ v.hasLongInteger = true := by
  rcases Outcome.bind_error.1 h with h | ⟨v, hv, h⟩
  · rcases (numberArgument_refuses rule path i).toWritten h with he | ⟨hd, v, hv, hlong⟩
    · exact .inl he
    · exact .inr ⟨hd, v, by simpa using hv, hlong⟩
  · obtain ⟨hget, hnumber, -⟩ := numberArgument_ok (Outcome.toWritten_ok.1 hv)
    rcases Outcome.bind_error.1 h with h | ⟨-, -, h⟩
    · obtain ⟨hd, hlong⟩ := Value.toLiteral_number (by simp [hnumber]) h
      exact .inr ⟨hd, v, hget, hlong⟩
    · cases h

theorem numberLiterals_error {rule : Rule} {path : Path} {arity : Nat} {failure : Failure}
    (h : rule.numberLiterals path arity = .error failure) :
    (∃ e : CompileError, e.cause.isRefusal = true ∧ failure = .rejected e) ∨
      failure = .defect .longInteger ∧ ∃ v ∈ rule.args.take arity, v.hasLongInteger = true := by
  rcases Outcome.bind_error.1 h with h | ⟨args, -, h⟩
  · obtain ⟨i, hi, h⟩ := Outcome.mapM_error h
    rcases numberLiteral_error h with he | ⟨hd, v, hv, hlong⟩
    · exact .inl he
    · refine .inr ⟨hd, v, List.mem_iff_getElem?.2 ⟨i, ?_⟩, hlong⟩
      rw [List.getElem?_take_of_lt (List.mem_range.1 hi), hv]
  · rcases Outcome.bind_error.1 h with h | ⟨-, -, h⟩
    · exact .inl ((checkExtra_refuses rule path arity).rejected h)
    · cases h

end Rule

/-! ## The path of a rule only shows in its errors -/

theorem Failure.ofError_moved (path : Path) (e : CompileError) :
    (ofError e).moveTo path = ofError (e.moveTo path) := by
  have hcause : (e.moveTo path).cause = e.cause := rfl
  unfold ofError
  rw [hcause]
  split <;> rfl

theorem toWritten_moved {α : Type} (path : Path) (c : Checked α) :
    c.toWritten.mapError (Failure.moveTo path) =
      Checked.toWritten (c.mapError (CompileError.moveTo path)) := by
  cases c with
  | ok a => rfl
  | error e => exact congrArg Except.error (Failure.ofError_moved path e)

theorem Value.toLiteral_moved (path : Path) (v : Value) :
    v.toLiteral.mapError (Failure.moveTo path) = v.toLiteral := by
  unfold toLiteral
  split <;> rfl

namespace Rule

theorem numberArgument_moved (rule : Rule) (path path' : Path) (i : Nat) :
    (rule.numberArgument path i).mapError (CompileError.moveTo path') =
      rule.numberArgument path' i := by
  unfold numberArgument
  split
  · rfl
  · split
    · rfl
    · split <;> rfl

theorem checkExtra_moved (rule : Rule) (path path' : Path) (arity : Nat) :
    (rule.checkExtra path arity).mapError (CompileError.moveTo path') =
      rule.checkExtra path' arity := by
  unfold checkExtra
  split <;> rfl

theorem numberLiteral_moved (rule : Rule) (path path' : Path) (i : Nat) :
    (rule.numberLiteral path i).mapError (Failure.moveTo path') = rule.numberLiteral path' i := by
  simp only [numberLiteral, Outcome.mapError_bind, toWritten_moved, numberArgument_moved,
    Value.toLiteral_moved]
  rfl

theorem numberLiterals_moved (rule : Rule) (path path' : Path) (arity : Nat) :
    (rule.numberLiterals path arity).mapError (Failure.moveTo path') =
      rule.numberLiterals path' arity := by
  simp only [numberLiterals, Outcome.mapError_bind, Outcome.mapError_mapM, numberLiteral_moved,
    toWritten_moved, checkExtra_moved]
  rfl

end Rule

namespace RuleForm

/-! ## Method calls

What a form adds to the code of a node does not depend on that code: it is a list of method calls. -/

open Code (Call)

/-- The method call of a predicate with a message. -/
def refinementCalls (predicate message : String) (arity : Nat) (rule : Rule) (site : RuleSite) :
    Written (List Call) := do
  if !site.refinements then
    (unsupported (.ruleRefinement rule.name) site.path : Checked Unit).toWritten
  let args ← rule.numberLiterals site.path arity
  let test ← (Text.template arity predicate).mapError .defect
  let wording ← (Text.template arity message).mapError .defect
  return [⟨"refine",
    [.filled test args, Code.message (Text.filledText (args.map Value.source) wording)]⟩]

def calls (form : RuleForm) (rule : Rule) (site : RuleSite) : Written (List Call) :=
  match form with
  | method name arity => do
    let args ← rule.numberLiterals site.path arity
    return [⟨name, args.map .literal⟩]
  | format name => .ok [⟨name, []⟩]
  | regex source => do
    (rule.checkExtra site.path 0).toWritten
    return [⟨"regex", [.raw source .call]⟩]
  | pattern => do
    let argument ← (patternArgument rule site.path).toWritten
    return [⟨"regex", [argument]⟩]
  | hex =>
    if (Rule.optionOf rule.firstArgument "byteAligned").truthy then
      .ok [⟨"regex", [.raw "/^(?:[a-f0-9]\x7b2\x7d)+$/i" .call]⟩]
    else .ok [⟨"regex", [.raw "/^[a-f0-9]+$/i" .call]⟩]
  | trim => if isOff rule then .ok [] else .ok [⟨"trim", []⟩]
  | letterCase => do
    let name ← (caseMethod rule.firstArgument site.path).toWritten
    return [⟨name, []⟩]
  | ip => do
    let version ← (onlyVersion (Rule.optionOf rule.firstArgument "version")).mapError .defect
    return [⟨"ip", versionArguments version⟩]
  | sign => do
    let name ← (signMethod rule.firstArgument site.path).toWritten
    return [⟨name, []⟩]
  | port => .ok [⟨"int", []⟩, ⟨"min", [.literal (.int 0)]⟩, ⟨"max", [.literal (.int 65535)]⟩]
  | dateBound name => do
    let date ← (boundDate name rule site.path).toWritten
    date.toLiteral
    return [⟨name, [.call "new Date" [.literal date]]⟩]
  | refinement predicate message arity => refinementCalls predicate message arity rule site

/-- An emitter that adds method calls, whatever code it is given. -/
def Adds (emit : Code → Written Code) (calls : Written (List Call)) : Prop :=
  ∀ target, emit target = do return target.chainAll (← calls)

section Emitters
variable (rule : Rule) (site : RuleSite)

theorem emitMethod_adds (name : String) (arity : Nat) :
    Adds (emitMethod name arity · rule site) (calls (method name arity) rule site) := by
  intro target
  simp only [emitMethod, calls, bind_assoc, pure_bind]
  rfl

theorem emitFormat_adds (name : String) : Adds (emitFormat name) (calls (format name) rule site) :=
  fun _ => rfl

theorem emitRegex_adds (source : String) :
    Adds (emitRegex source · rule site) (calls (regex source) rule site) := by
  intro target
  simp only [emitRegex, calls, bind_assoc, pure_bind]
  rfl

theorem emitPattern_adds : Adds (emitPattern · rule site) (calls pattern rule site) := by
  intro target
  simp only [emitPattern, calls, bind_assoc, pure_bind]
  rfl

theorem emitHex_adds : Adds (emitHex · rule) (calls hex rule site) := by
  intro target
  simp only [emitHex, calls]
  split <;> rfl

theorem emitTrim_adds : Adds (emitTrim · rule) (calls trim rule site) := by
  intro target
  simp only [emitTrim, calls]
  split <;> rfl

theorem emitCase_adds : Adds (emitCase · rule site) (calls letterCase rule site) := by
  intro target
  simp only [emitCase, calls, bind_assoc, pure_bind]
  rfl

theorem emitIp_adds : Adds (emitIp · rule) (calls ip rule site) := by
  intro target
  simp only [emitIp, calls, bind_assoc, pure_bind]
  rfl

theorem emitSign_adds : Adds (emitSign · rule site) (calls sign rule site) := by
  intro target
  simp only [emitSign, calls, bind_assoc, pure_bind]
  rfl

theorem emitPort_adds : Adds emitPort (calls port rule site) := fun _ => rfl

theorem emitDateBound_adds (name : String) :
    Adds (emitDateBound name · rule site) (calls (dateBound name) rule site) := by
  intro target
  simp only [emitDateBound, calls, bind_assoc, pure_bind]
  rfl

theorem emitRefinement_adds (predicate message : String) (arity : Nat) :
    Adds (emitRefinement predicate message arity · rule site)
      (calls (refinement predicate message arity) rule site) := by
  intro target
  simp only [emitRefinement, calls, refinementCalls]
  split
  · rfl
  · simp only [bind_assoc, pure_bind]
    rfl

end Emitters

/-- A form adds the method calls of the rule to the code it is given. -/
theorem emit_adds (form : RuleForm) (rule : Rule) (site : RuleSite) :
    Adds (form.emit · rule site) (form.calls rule site) := by
  cases form with
  | method name arity => exact emitMethod_adds rule site name arity
  | format name => exact emitFormat_adds rule site name
  | regex source => exact emitRegex_adds rule site source
  | pattern => exact emitPattern_adds rule site
  | hex => exact emitHex_adds rule site
  | trim => exact emitTrim_adds rule site
  | letterCase => exact emitCase_adds rule site
  | ip => exact emitIp_adds rule site
  | sign => exact emitSign_adds rule site
  | port => exact emitPort_adds rule site
  | dateBound name => exact emitDateBound_adds rule site name
  | refinement predicate message arity => exact emitRefinement_adds rule site predicate message arity

theorem emit_ok {form : RuleForm} {target code : Code} {rule : Rule} {site : RuleSite}
    (h : form.emit target rule site = .ok code) :
    ∃ calls, form.calls rule site = .ok calls ∧ code = target.chainAll calls := by
  obtain ⟨calls, hcalls, h⟩ := Outcome.bind_ok.1 ((form.emit_adds rule site target).symm.trans h)
  cases h
  exact ⟨calls, hcalls, rfl⟩

/-! ## Failures of rules -/

/-- The arguments of a rule that are written as they are, or spelled in an error. -/
def looked (form : RuleForm) (rule : Rule) : List Value :=
  match form with
  | method _ arity | refinement _ _ arity => rule.args.take arity
  | letterCase | sign => [rule.firstArgument]
  | dateBound _ => rule.args.take 1
  | _ => []

/-- The sources of defects: versions of an address that cannot be told apart, templates that cannot be
filled, and integers with too many digits. -/
inductive Defective (rule : Rule) : RuleForm → Defect → Prop where
  | versions {d : Defect} (h : onlyVersion (Rule.optionOf rule.firstArgument "version") = .error d) :
    Defective rule ip d
  | predicate {predicate message arity} {d : Defect} (h : Text.template arity predicate = .error d) :
    Defective rule (refinement predicate message arity) d
  | message {predicate message arity} {d : Defect} (h : Text.template arity message = .error d) :
    Defective rule (refinement predicate message arity) d
  | digits {form : RuleForm} {v : Value} (hv : v ∈ form.looked rule) (h : v.hasLongInteger = true) :
    Defective rule form .longInteger

theorem patternArgument_refuses (rule : Rule) (path : Path) :
    Checked.Refuses [] (patternArgument rule path) := by
  unfold patternArgument
  split
  · split
    · exact Checked.refuses_unsupported rfl
    · split <;> exact Checked.refuses_ok _
  · exact Checked.refuses_malformed (by simp [Malformation.values])

theorem caseMethod_refuses (direction : Value) (path : Path) :
    Checked.Refuses [direction] (caseMethod direction path) := by
  unfold caseMethod
  split
  · exact Checked.refuses_ok _
  · exact Checked.refuses_ok _
  · exact Checked.refuses_malformed (by simp [Malformation.values])

theorem signMethod_refuses (sign : Value) (path : Path) :
    Checked.Refuses [sign] (signMethod sign path) := by
  unfold signMethod
  split
  · exact Checked.refuses_ok _
  · exact Checked.refuses_ok _
  · exact Checked.refuses_malformed (by simp [Malformation.values])

theorem boundDate_refuses (name : String) (rule : Rule) (path : Path) :
    Checked.Refuses (rule.args.take 1) (boundDate name rule path) := by
  unfold boundDate
  split
  · exact Checked.refuses_malformed (by simp [Malformation.values])
  · rename_i value rest hargs
    split
    · exact Checked.refuses_unsupported rfl
    · split
      · exact Checked.refuses_ok _
      · exact Checked.refuses_malformed (by simp [Malformation.values, hargs])

theorem boundDate_ok {name : String} {rule : Rule} {path : Path} {date : Value}
    (h : boundDate name rule path = .ok date) : date ∈ rule.args.take 1 ∧
      (date.isNumber || date.text?.isSome) = true ∧ date.isFinite = true := by
  unfold boundDate at h
  split at h
  · cases h
  · rename_i hargs
    split at h
    · cases h
    · split at h <;> cases h
      rename_i hdate
      exact ⟨by simp [hargs], Bool.and_eq_true_iff.1 hdate⟩

/-- How a rule of a given form may fail. -/
def FailsWell (form : RuleForm) (rule : Rule) (w : Written (List Call)) : Prop :=
  ∀ failure, w = .error failure →
    (∃ e : CompileError, e.cause.isRefusal = true ∧ failure = .rejected e) ∨
      ∃ d, failure = .defect d ∧ Defective rule form d

section Failures
variable {form : RuleForm} {rule : Rule}

theorem failsWell_ok {calls : List Call} : FailsWell form rule (.ok calls) :=
  fun failure h => by cases h

/-- A form that checks something and then makes calls of it. -/
theorem failsWell_checked {α : Type} {c : Checked α} {f : α → List Call}
    (h : Checked.Refuses (form.looked rule) c) :
    FailsWell form rule (do return f (← c.toWritten)) := by
  intro failure hf
  rcases Outcome.bind_error.1 hf with hf | ⟨a, -, hf⟩
  · rcases h.toWritten hf with he | ⟨rfl, v, hv, hlong⟩
    · exact .inl he
    · exact .inr ⟨_, rfl, .digits hv hlong⟩
  · cases hf

theorem failsWell_literals {path : Path} {arity : Nat} (hlooked : form.looked rule = rule.args.take arity)
    {failure : Failure} (h : rule.numberLiterals path arity = .error failure) :
    (∃ e : CompileError, e.cause.isRefusal = true ∧ failure = .rejected e) ∨
      ∃ d, failure = .defect d ∧ Defective rule form d := by
  rcases Rule.numberLiterals_error h with he | ⟨rfl, v, hv, hlong⟩
  · exact .inl he
  · exact .inr ⟨_, rfl, .digits (hlooked ▸ hv) hlong⟩

end Failures

theorem dateBound_failsWell (name : String) (rule : Rule) (site : RuleSite) :
    FailsWell (dateBound name) rule ((dateBound name).calls rule site) := by
  intro failure h
  rcases Outcome.bind_error.1 h with h | ⟨date, hdate, h⟩
  · rcases (boundDate_refuses name rule site.path).toWritten h with he | ⟨rfl, v, hv, hlong⟩
    · exact .inl he
    · exact .inr ⟨_, rfl, .digits hv hlong⟩
  · obtain ⟨hmem, hvalue, -⟩ := boundDate_ok (Outcome.toWritten_ok.1 hdate)
    rcases Outcome.bind_error.1 h with h | ⟨-, -, h⟩
    · obtain ⟨rfl, hlong⟩ := Value.toLiteral_number hvalue h
      exact .inr ⟨_, rfl, .digits hmem hlong⟩
    · cases h

theorem refinementCalls_failsWell (predicate message : String) (arity : Nat) (rule : Rule)
    (site : RuleSite) :
    FailsWell (refinement predicate message arity) rule
      (refinementCalls predicate message arity rule site) := by
  intro failure h
  -- The parts in order: whether predicates may be used, the arguments, and the two templates.
  simp only [refinementCalls] at h
  split at h
  · cases h
    exact .inl ⟨_, rfl, rfl⟩
  rcases Outcome.bind_error.1 h with h | ⟨args, -, h⟩
  · exact failsWell_literals rfl h
  rcases Outcome.bind_error.1 h with h | ⟨test, -, h⟩
  · obtain ⟨d, hd, rfl⟩ := Outcome.mapError_error.1 h
    exact .inr ⟨d, rfl, .predicate hd⟩
  rcases Outcome.bind_error.1 h with h | ⟨wording, -, h⟩
  · obtain ⟨d, hd, rfl⟩ := Outcome.mapError_error.1 h
    exact .inr ⟨d, rfl, .message hd⟩
  · cases h

/-- A rule is refused, or it meets a defect of its form. -/
theorem calls_failsWell (form : RuleForm) (rule : Rule) (site : RuleSite) :
    FailsWell form rule (form.calls rule site) := by
  cases form with
  | method name arity =>
    intro failure h
    rcases Outcome.bind_error.1 h with h | ⟨args, -, h⟩
    · exact failsWell_literals rfl h
    · cases h
  | format name => exact failsWell_ok
  | regex source => exact failsWell_checked (rule.checkExtra_refuses _ _)
  | pattern => exact failsWell_checked (patternArgument_refuses _ _)
  | hex => simp only [calls]; split <;> exact failsWell_ok
  | trim => simp only [calls]; split <;> exact failsWell_ok
  | letterCase => exact failsWell_checked (caseMethod_refuses _ _)
  | ip =>
    intro failure h
    rcases Outcome.bind_error.1 h with h | ⟨version, -, h⟩
    · obtain ⟨d, hd, rfl⟩ := Outcome.mapError_error.1 h
      exact .inr ⟨d, rfl, .versions hd⟩
    · cases h
  | sign => exact failsWell_checked (signMethod_refuses _ _)
  | port => exact failsWell_ok
  | dateBound name => exact dateBound_failsWell _ _ _
  | refinement predicate message arity => exact refinementCalls_failsWell _ _ _ _ _

/-! ## Rules at another place -/

theorem patternArgument_moved (rule : Rule) (path path' : Path) :
    (patternArgument rule path).mapError (CompileError.moveTo path') = patternArgument rule path' := by
  unfold patternArgument
  split
  · split
    · rfl
    · split <;> rfl
  · rfl

theorem boundDate_moved (name : String) (rule : Rule) (path path' : Path) :
    (boundDate name rule path).mapError (CompileError.moveTo path') = boundDate name rule path' := by
  unfold boundDate
  split
  · rfl
  · split
    · rfl
    · split <;> rfl

theorem caseMethod_moved (direction : Value) (path path' : Path) :
    (caseMethod direction path).mapError (CompileError.moveTo path') = caseMethod direction path' := by
  unfold caseMethod
  split <;> rfl

theorem signMethod_moved (sign : Value) (path path' : Path) :
    (signMethod sign path).mapError (CompileError.moveTo path') = signMethod sign path' := by
  unfold signMethod
  split <;> rfl

theorem refinementCalls_moved (predicate message : String) (arity : Nat) (rule : Rule)
    (site : RuleSite) (path : Path) :
    (refinementCalls predicate message arity rule site).mapError (Failure.moveTo path) =
      refinementCalls predicate message arity rule { site with path := path } := by
  have template_moved : ∀ text, ((Text.template arity text).mapError Failure.defect).mapError
      (Failure.moveTo path) = (Text.template arity text).mapError Failure.defect := by
    intro text
    cases Text.template arity text <;> rfl
  simp only [refinementCalls]
  split
  · rfl
  · simp only [Outcome.mapError_bind, Rule.numberLiterals_moved, template_moved]
    rfl

/-- A rule at another path becomes the same calls, or fails alike at that path. -/
theorem calls_moved (form : RuleForm) (rule : Rule) (site : RuleSite) (path : Path) :
    (form.calls rule site).mapError (Failure.moveTo path) =
      form.calls rule { site with path := path } := by
  -- Forms that check nothing give the same calls at every path.
  cases form with
  | method name arity =>
    simp only [calls, Outcome.mapError_bind, Rule.numberLiterals_moved]
    rfl
  | regex source =>
    simp only [calls, Outcome.mapError_bind, toWritten_moved, Rule.checkExtra_moved]
    rfl
  | pattern =>
    simp only [calls, Outcome.mapError_bind, toWritten_moved, patternArgument_moved]
    rfl
  | dateBound name =>
    simp only [calls, Outcome.mapError_bind, toWritten_moved, boundDate_moved, Value.toLiteral_moved]
    rfl
  | refinement predicate message arity => exact refinementCalls_moved _ _ _ _ _ _
  | letterCase =>
    simp only [calls, Outcome.mapError_bind, toWritten_moved, caseMethod_moved]
    rfl
  | ip =>
    simp only [calls]
    cases onlyVersion (Rule.optionOf rule.firstArgument "version") <;> rfl
  | sign =>
    simp only [calls, Outcome.mapError_bind, toWritten_moved, signMethod_moved]
    rfl
  | trim => simp only [calls]; split <;> rfl
  | format name => rfl
  | hex => simp only [calls]; split <;> rfl
  | port => rfl

/-! ## What rules become -/

/-- The methods that rules call without arguments, beside those that the table names. -/
def bareMethods : List String := ["trim", "toLowerCase", "toUpperCase", "ip", "positive", "negative"]

/-- The method calls that a form can make of a rule. Arguments that are written are numbers, or texts
for dates. -/
inductive Makes (rule : Rule) : RuleForm → List Code.Call → Prop where
  | method (name : String) (arity : Nat) (args : List Value)
    (h : ∀ v ∈ args, v.isNumber = true ∧ v.isFinite = true) :
    Makes rule (.method name arity) [⟨name, args.map .literal⟩]
  | format (name : String) : Makes rule (.format name) [⟨name, []⟩]
  | regex (source : String) : Makes rule (.regex source) [⟨"regex", [.raw source .call]⟩]
  /-- A pattern that is a regular expression already is taken over. -/
  | verbatim {source : String} {options : List Value} (h : rule.args = .str source :: options)
    (hs : Text.isRegexLiteral source = true) :
    Makes rule .pattern [⟨"regex", [.raw source .call]⟩]
  | quoted (source : String) :
    Makes rule .pattern [⟨"regex", [.call "new RegExp" [.literal (.str source)]]⟩]
  | hexPairs : Makes rule .hex [⟨"regex", [.raw "/^(?:[a-f0-9]\x7b2\x7d)+$/i" .call]⟩]
  | hexDigits : Makes rule .hex [⟨"regex", [.raw "/^[a-f0-9]+$/i" .call]⟩]
  | untrimmed : Makes rule .trim []
  | bare {form : RuleForm} {name : String} (h : name ∈ bareMethods) :
    Makes rule form [⟨name, []⟩]
  | version (v : String) : Makes rule .ip [⟨"ip", [.record [("version", .literal (.str v))]]⟩]
  | port : Makes rule .port
    [⟨"int", []⟩, ⟨"min", [.literal (.int 0)]⟩, ⟨"max", [.literal (.int 65535)]⟩]
  | dateBound (name : String) (date : Value)
    (h : (date.isNumber || date.text?.isSome) = true ∧ date.isFinite = true) :
    Makes rule (.dateBound name) [⟨name, [.call "new Date" [.literal date]]⟩]
  | refinement {predicate : String} {arity : Nat} {test : List Piece}
    (h : Text.template arity predicate = .ok test) (message wording : String) (args : List Value)
    (hargs : ∀ v ∈ args, v.isNumber = true ∧ v.isFinite = true) :
    Makes rule (.refinement predicate message arity)
      [⟨"refine", [.filled test args, Code.message wording]⟩]

theorem caseMethod_mem {direction : Value} {path : Path} {name : String}
    (h : caseMethod direction path = .ok name) : name ∈ bareMethods := by
  unfold caseMethod at h
  split at h <;> cases h <;> simp [bareMethods]

theorem signMethod_mem {sign : Value} {path : Path} {name : String}
    (h : signMethod sign path = .ok name) : name ∈ bareMethods := by
  unfold signMethod at h
  split at h <;> cases h <;> simp [bareMethods]

theorem pattern_makes {rule : Rule} {path : Path} {argument : Code}
    (h : patternArgument rule path = .ok argument) : Makes rule .pattern [⟨"regex", [argument]⟩] := by
  unfold patternArgument at h
  split at h
  · rename_i hargs
    split at h
    · cases h
    · split at h <;> cases h
      · rename_i hs
        exact .verbatim hargs hs
      · exact .quoted _
  · cases h

theorem refinementCalls_makes {predicate message : String} {arity : Nat} {rule : Rule}
    {site : RuleSite} {calls : List Code.Call}
    (hc : refinementCalls predicate message arity rule site = .ok calls) :
    Makes rule (.refinement predicate message arity) calls := by
  simp only [refinementCalls] at hc
  split at hc
  · cases hc
  · simp only [Outcome.bind_ok, Outcome.pure_ok] at hc
    obtain ⟨args, hargs, test, htest, wording, -, rfl⟩ := hc
    refine .refinement ?_ message _ args (Rule.numberLiterals_ok hargs)
    cases htemplate : Text.template arity predicate with
    | error d => rw [htemplate] at htest; cases htest
    | ok pieces => rw [htemplate] at htest; cases htest; rfl

theorem calls_makes {form : RuleForm} {rule : Rule} {site : RuleSite} {calls : List Code.Call}
    (hc : form.calls rule site = .ok calls) : Makes rule form calls := by
  cases form with
  | method name arity =>
    obtain ⟨args, hargs, hcalls⟩ := Outcome.bind_ok.1 hc
    cases hcalls
    exact .method name arity args (Rule.numberLiterals_ok hargs)
  | regex source =>
    obtain ⟨-, -, hraw⟩ := Outcome.bind_ok.1 hc
    cases hraw
    exact .regex source
  | pattern =>
    obtain ⟨argument, hargument, hcalls⟩ := Outcome.bind_ok.1 hc
    cases hcalls
    exact pattern_makes (Outcome.toWritten_ok.1 hargument)
  | dateBound name =>
    obtain ⟨date, hdate, hc⟩ := Outcome.bind_ok.1 hc
    obtain ⟨-, -, hcalls⟩ := Outcome.bind_ok.1 hc
    cases hcalls
    exact .dateBound name date (boundDate_ok (Outcome.toWritten_ok.1 hdate)).2
  | refinement predicate message arity => exact refinementCalls_makes hc
  | format name => cases hc; exact .format name
  | hex =>
    simp only [RuleForm.calls] at hc
    split at hc <;> cases hc
    · exact .hexPairs
    · exact .hexDigits
  | trim =>
    simp only [RuleForm.calls] at hc
    split at hc <;> cases hc
    · exact .untrimmed
    · exact .bare (by simp [bareMethods])
  | letterCase =>
    obtain ⟨name, hname, hcalls⟩ := Outcome.bind_ok.1 hc
    cases hcalls
    exact .bare (caseMethod_mem (Outcome.toWritten_ok.1 hname))
  | ip =>
    obtain ⟨version, -, hcalls⟩ := Outcome.bind_ok.1 hc
    cases hcalls
    cases version with
    | none => exact .bare (by simp [bareMethods])
    | some version => exact .version version
  | sign =>
    obtain ⟨name, hname, hcalls⟩ := Outcome.bind_ok.1 hc
    cases hcalls
    exact .bare (signMethod_mem (Outcome.toWritten_ok.1 hname))
  | port => cases hc; exact .port

/-- Rules only add code without names. -/
theorem Makes.closed {good : Code → Prop} (h : Code.Closed good) {rule : Rule} {form : RuleForm}
    {calls : List Code.Call} (hm : Makes rule form calls) : ∀ c ∈ calls, ∀ a ∈ c.args, good a := by
  cases hm
  case port => simp [h.literal]
  case refinement => simp [Code.message, h.filled, h.literal, h.record]
  all_goals simp [h.raw, h.literal, h.call_one, h.record]

end RuleForm

namespace Rulebook

/-! ## The rules that are supported from the start -/

/-- Whether the templates of a form can be filled with its arguments. -/
def hasSoundTemplates : RuleForm → Bool
  | .refinement predicate message arity =>
    (Text.template arity predicate).isOk && (Text.template arity message).isOk
  | _ => true

/-- A supported rule stands in the table under its kind and name. -/
theorem mem_of_get? {table : Rulebook} {kind : Kind} {name : String} {form : RuleForm}
    (h : table.get? kind name = some form) : ⟨kind, name, some form⟩ ∈ table.entries := by
  obtain ⟨entry, he, hform⟩ := Option.bind_eq_some_iff.1 h
  have hfor := List.find?_some he
  simp only [isFor, Bool.and_eq_true, beq_iff_eq] at hfor
  obtain ⟨rfl, rfl⟩ := hfor
  rw [← hform]
  exact List.mem_of_find?_eq_some he

theorem builtin_templates : ∀ entry ∈ builtin.entries, entry.emitter.all hasSoundTemplates = true := by
  decide +kernel

theorem builtin_addresses : ∀ entry ∈ builtin.entries,
    entry.emitter = some .ip → entry.kind = .string ∧ entry.name = "ip" := by
  decide +kernel

theorem template_sound {arity : Nat} {text : String} {d : Defect}
    (h : (Text.template arity text).isOk = true) : Text.template arity text ≠ .error d := by
  intro he
  rw [he] at h
  cases h

/-- Among the rules supported from the start only addresses meet a defect, beside integers with too many
digits. -/
theorem builtin_defective {kind : Kind} {name : String} {form : RuleForm} {rule : Rule} {d : Defect}
    (hform : builtin.get? kind name = some form) (hd : RuleForm.Defective rule form d) :
    (kind = .string ∧ name = "ip" ∧
      RuleForm.onlyVersion (Rule.optionOf rule.firstArgument "version") = .error d) ∨
      d = .longInteger ∧ ∃ v ∈ form.looked rule, v.hasLongInteger = true := by
  have hmem := mem_of_get? hform
  -- The table is looked through once, for its templates and for its addresses.
  have hsound := builtin_templates _ hmem
  cases hd with
  | versions h =>
    obtain ⟨hkind, hname⟩ := builtin_addresses _ hmem rfl
    exact .inl ⟨hkind, hname, h⟩
  | predicate h =>
    simp only [Option.all_some, hasSoundTemplates, Bool.and_eq_true] at hsound
    exact absurd h (template_sound hsound.1)
  | message h =>
    simp only [Option.all_some, hasSoundTemplates, Bool.and_eq_true] at hsound
    exact absurd h (template_sound hsound.2)
  | digits hv hlong => exact .inr ⟨rfl, _, hv, hlong⟩

end Rulebook

namespace Writing

/-! ## The rules of a node -/

def ruleCalls (setting : Setting) (kind : Kind) (rule : Rule) (path : Path) :
    Written (List Code.Call) :=
  match setting.rules.get? kind rule.name with
  | some form => form.calls rule ⟨kind, path, setting.options.refinements⟩
  | none => .error (.rejected ⟨.unsupportedRule kind rule.name, path⟩)

/-- The method calls of all rules of a node, in order. -/
def allRuleCalls (setting : Setting) (node : Node) : Written (List Code.Call) := do
  let groups ← node.rules.zipIdx.mapM fun pair =>
    ruleCalls setting node.kind pair.1 ((node.path.key "rules").index pair.2)
  return groups.flatten

theorem applyRule_eq (setting : Setting) (kind : Kind) (target : Code) (rule : Rule) (path : Path) :
    applyRule setting kind target rule path = do
      return target.chainAll (← ruleCalls setting kind rule path) := by
  unfold applyRule ruleCalls
  cases setting.rules.get? kind rule.name with
  | none => rfl
  | some form => exact form.emit_adds rule _ target

theorem chainAll_append (target : Code) (calls calls' : List Code.Call) :
    target.chainAll (calls ++ calls') = (target.chainAll calls).chainAll calls' := List.foldl_append

/-- The forms add their calls one after the other, whatever code they start from. -/
theorem applyRules_eq (setting : Setting) (node : Node) (target : Code) :
    applyRules setting node target = do return target.chainAll (← allRuleCalls setting node) := by
  simp only [applyRules, allRuleCalls, applyRule_eq, bind_assoc, pure_bind]
  -- The code that a rule is added to is whatever the rules before it have given.
  induction node.rules.zipIdx generalizing target with
  | nil => rfl
  | cons pair rest ih =>
    simp only [List.foldlM_cons, List.mapM_cons, ih, bind_assoc, pure_bind, List.flatten_cons,
      chainAll_append]

theorem applyRules_ok {setting : Setting} {node : Node} {target code : Code}
    (h : applyRules setting node target = .ok code) :
    ∃ calls, allRuleCalls setting node = .ok calls ∧ code = target.chainAll calls := by
  rw [applyRules_eq] at h
  obtain ⟨calls, hcalls, h⟩ := Outcome.bind_ok.1 h
  cases h
  exact ⟨calls, hcalls, rfl⟩

theorem applyRules_error {setting : Setting} {node : Node} {target : Code} {failure : Failure}
    (h : applyRules setting node target = .error failure) :
    allRuleCalls setting node = .error failure := by
  rw [applyRules_eq] at h
  rcases Outcome.bind_error.1 h with h | ⟨calls, -, h⟩
  · exact h
  · cases h

/-- A rule is not in the table, or it is refused, or it meets a defect of its form. -/
theorem ruleCalls_error {setting : Setting} {kind : Kind} {rule : Rule} {path : Path}
    {failure : Failure} (h : ruleCalls setting kind rule path = .error failure) :
    failure = .rejected ⟨.unsupportedRule kind rule.name, path⟩ ∨
      (∃ e : CompileError, e.cause.isRefusal = true ∧ failure = .rejected e) ∨
      ∃ d form, setting.rules.get? kind rule.name = some form ∧ failure = .defect d ∧
        RuleForm.Defective rule form d := by
  unfold ruleCalls at h
  split at h
  · rename_i form hform
    rcases form.calls_failsWell rule _ failure h with he | ⟨d, rfl, hd⟩
    · exact .inr (.inl he)
    · exact .inr (.inr ⟨d, form, hform, rfl, hd⟩)
  · cases h
    exact .inl rfl

/-- A rule that fails is reported at its place among the rules of the node. -/
theorem allRuleCalls_error_at {setting : Setting} {node : Node} {failure : Failure}
    (h : allRuleCalls setting node = .error failure) :
    ∃ rule i, node.rules[i]? = some rule ∧
      ruleCalls setting node.kind rule ((node.path.key "rules").index i) = .error failure := by
  rcases Outcome.bind_error.1 h with h | ⟨calls, -, h⟩
  · obtain ⟨⟨rule, i⟩, hmem, h⟩ := Outcome.mapM_error h
    exact ⟨rule, i, List.mem_zipIdx_iff_getElem?.1 hmem, h⟩
  · cases h

theorem allRuleCalls_error {setting : Setting} {node : Node} {failure : Failure}
    (h : allRuleCalls setting node = .error failure) :
    ∃ rule ∈ node.rules, ∃ path, ruleCalls setting node.kind rule path = .error failure := by
  obtain ⟨rule, i, hi, h⟩ := allRuleCalls_error_at h
  exact ⟨rule, List.mem_of_getElem? hi, _, h⟩

/-- If all rules of a node can be written, each of them can. -/
theorem allRuleCalls_ok {setting : Setting} {node : Node} {calls : List Code.Call}
    (h : allRuleCalls setting node = .ok calls) :
    ∀ rule ∈ node.rules, ∃ path calls, ruleCalls setting node.kind rule path = .ok calls := by
  obtain ⟨groups, hgroups, -⟩ := Outcome.bind_ok.1 h
  intro rule hrule
  obtain ⟨i, hi⟩ := List.mem_iff_getElem?.1 hrule
  obtain ⟨calls, hcalls⟩ := Outcome.mapM_ok_all hgroups (rule, i)
    (List.mk_mem_zipIdx_iff_getElem?.2 hi)
  exact ⟨_, calls, hcalls⟩

/-- Every method call of a node is a call of the form that the table has for one of its rules. -/
theorem calls_of_mem_calls {setting : Setting} {node : Node} {calls : List Code.Call}
    (h : allRuleCalls setting node = .ok calls) {c : Code.Call} (hc : c ∈ calls) :
    ∃ rule ∈ node.rules, ∃ form site group, setting.rules.get? node.kind rule.name = some form ∧
      form.calls rule site = .ok group ∧ c ∈ group := by
  obtain ⟨groups, hgroups, hcalls⟩ := Outcome.bind_ok.1 h
  cases hcalls
  obtain ⟨group, hgroup, hc⟩ := List.mem_flatten.1 hc
  obtain ⟨⟨rule, i⟩, hmem, hrule⟩ := Outcome.mapM_ok_mem hgroups group hgroup
  simp only [ruleCalls] at hrule
  split at hrule
  · rename_i form hform
    refine ⟨rule, ?_, form, _, group, hform, hrule, hc⟩
    exact List.mem_of_getElem? (List.mem_zipIdx_iff_getElem?.1 hmem)
  · cases hrule

/-- Every method call of a node is what the table makes of one of its rules. -/
theorem makes_of_mem_calls {setting : Setting} {node : Node} {calls : List Code.Call}
    (h : allRuleCalls setting node = .ok calls) {c : Code.Call} (hc : c ∈ calls) :
    ∃ rule ∈ node.rules, ∃ form group, setting.rules.get? node.kind rule.name = some form ∧
      RuleForm.Makes rule form group ∧ c ∈ group := by
  obtain ⟨rule, hrule, form, site, group, hform, hgroup, hc⟩ := calls_of_mem_calls h hc
  exact ⟨rule, hrule, form, group, hform, RuleForm.calls_makes hgroup, hc⟩

end Writing

end Schemata
