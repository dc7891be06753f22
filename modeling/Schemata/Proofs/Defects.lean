import Schemata.Compiler
import Schemata.Proofs.WellFormed
/-!
When a compilation ends upon a defect.

Everything a description can do wrong is reported as an error, with three exceptions. The versions of an
address are counted before they are looked at, and a number, a boolean or an entry of a map cannot be.
A reference that points outside its object is shown in the error about it, with a dot per level, and
a level can be too large for that. An integer with too many digits has no text, neither in the code nor
in an error about it. With the rules that are supported from the start a compilation ends upon a defect
exactly if it comes to one of the three and nothing is rejected (`compile_defect_iff`).
-/

namespace Schemata

namespace RuleForm

/-- Whether versions are there and cannot be counted: a number or a boolean that counts as true, or one
entry that does not stand under zero. -/
def isUncounted : Value → Bool
  | .bool b => b
  | .int n => n != 0
  | .float x => !x.isZero
  | .decimal d => !d.isZero
  | .map [(key, _)] => !key.sameKey (.int 0)
  | _ => false

theorem onlyVersion_error_iff (versions : Value) :
    (∃ d, onlyVersion versions = .error d) ↔ isUncounted versions = true := by
  have hscalar : ∀ b : Bool, (∃ d, (if b = true then .error .uncountedVersions else .ok none :
      Except Defect (Option String)) = .error d) ↔ b = true := by
    intro b
    cases b <;> simp
  cases versions with
  | bool b => exact hscalar b
  | int n => exact hscalar (n != 0)
  | float x => exact hscalar (!x.isZero)
  | decimal d => exact hscalar (!d.isZero)
  | map entries =>
    match entries with
    | [] => simp [onlyVersion, isUncounted]
    | [(key, version)] =>
      simp only [onlyVersion, isUncounted]
      cases key.sameKey (.int 0) <;> simp
    | _ :: _ :: _ => simp [onlyVersion, isUncounted]
  | list items =>
    match items with
    | [] => simp [onlyVersion, isUncounted]
    | [version] => simp [onlyVersion, isUncounted]
    | _ :: _ :: _ => simp [onlyVersion, isUncounted]
  | tuple items =>
    match items with
    | [] => simp [onlyVersion, isUncounted]
    | [version] => simp [onlyVersion, isUncounted]
    | _ :: _ :: _ => simp [onlyVersion, isUncounted]
  | null => simp [onlyVersion, isUncounted]
  | str s => simp [onlyVersion, isUncounted]
  | bytes content => simp [onlyVersion, isUncounted]

end RuleForm

theorem Reference.access_ne_ok {r : Reference} {field : String} {path : Path} {access : String}
    (h : r.isShown = false) : r.access field path ≠ .ok access := by
  have hfar : r.scope = .value ∧
      (-0x8000000000000000 ≤ r.ancestor + 1 → 0x8000000000000000 ≤ r.ancestor + 1) := by
    simpa [isShown] using h
  -- The references that can be read are at most one level away.
  rw [Reference.access, if_neg (by omega), if_neg (by omega), if_neg (by simp [h])]
  simp

/-! ## Values of a node -/

theorem Value.isExpressible_of_isScalar {v : Value} (hscalar : v.isScalar = true)
    (hfinite : v.isFinite = true) : v.isExpressible = true := by
  cases v with
  | float x => exact hfinite
  | decimal d => exact hfinite
  | bytes content => cases hscalar
  | list items => cases hscalar
  | tuple items => cases hscalar
  | map entries => cases hscalar
  | _ => rfl

namespace Node

/-- The values of a node can be expressed, and those that it lists are scalars. -/
structure Expressible (n : Node) : Prop where
  listed : ∀ v ∈ n.valids ++ n.allow ++ n.invalids, v.isScalar = true ∧ v.isFinite = true
  default : ∀ v, n.flags.default = some v → v.isExpressible = true

theorem Expressible.literals {n : Node} (h : n.Expressible) :
    ∀ v ∈ n.literals, v.isExpressible = true := by
  intro v hv
  rcases List.mem_append.1 hv with hv | hv
  · obtain ⟨hscalar, hfinite⟩ := h.listed v hv
    exact Value.isExpressible_of_isScalar hscalar hfinite
  · exact h.default v (Option.mem_toList.1 hv)

theorem Reads.expressible {child : ChildReader} {entries : Entries} {path : Path} {n : Node}
    (h : n.Reads child entries path) : n.Expressible := by
  refine ⟨h.values_scalar, fun v hv => ?_⟩
  obtain ⟨raw, -, hflags⟩ := h.flags
  obtain ⟨path, hcheck⟩ := readFlags_default hflags v hv
  exact checkLiteral_expressible hcheck

theorem expressible_of_compares {n : Node} (h : Case.Compares n) : n.Expressible := by
  refine ⟨h.values_scalar, fun v hv => ?_⟩
  cases h <;> cases hv

/-- In a description that is read, every value to be written can be expressed. -/
theorem read_expressible {limit : Int} {levels : Nat} {raw : Value} {path : Path} {n : Node}
    (h : read limit levels raw path = .ok n) : n.All Expressible :=
  read_all (V := fun _ => True) (fun _ _ _ _ => trivial) (fun _ hn => hn.expressible)
    expressible_of_compares trivial h

end Node

namespace Writing

theorem expressible_guardBase {k base : Node} (h : guardBase k = some base) (hk : k.Expressible) :
    base.Expressible := by
  rw [guardBase_eq h]
  exact ⟨hk.listed, hk.default⟩

theorem expressible_merge {base branch n : Node} (h : base.merge branch = .ok n)
    (hbase : base.Expressible) (hbranch : branch.Expressible) : n.Expressible := by
  constructor
  · intro v hv
    rcases Node.merge_values h hv with hv | hv
    · exact hbase.listed v hv
    · exact hbranch.listed v hv
  · intro v hv
    rcases Node.merge_default h hv with hv | hv
    · exact hbase.default v hv
    · exact hbranch.default v hv

theorem Reaches.expressible {levels l : Nat} {root n : Node} (hroot : root.All Node.Expressible)
    (h : Reaches levels root l n) : n.All Node.Expressible := by
  induction h with
  | root => exact hroot
  | step _ hm ih =>
    apply all_of_mem_children _ _ ih hm
    · exact fun _ _ => expressible_guardBase
    · exact fun _ _ _ hmerge _ => expressible_merge hmerge

theorem toLiteral_of_isExpressible {v : Value} (h : v.isExpressible = true) :
    v.toLiteral = if v.hasLongInteger then .error (.defect .longInteger) else .ok () := by
  unfold Value.toLiteral
  rw [Value.unwritable_of_isExpressible h]
  cases v.hasLongInteger <;> rfl

end Writing

/-! ## Nodes with a defect -/

namespace Node

/-- A string that has to be an address and does not say in a way that can be counted of which
versions. -/
def HasUncountedVersions (n : Node) : Prop :=
  n.kind = .string ∧ ∃ rule ∈ n.rules, rule.name = "ip" ∧
    RuleForm.isUncounted (Rule.optionOf rule.firstArgument "version") = true

/-- An object with a property that depends on a reference without a text. -/
def HasUncountedDots (n : Node) : Prop :=
  n.kind = .object ∧ ∃ guard ∈ n.keyGuards, guard.reference.isShown = false

/-- A node that has an integer with too many digits in one of its values, or in an argument of a rule
that is written or spelled. -/
def HasLongInteger (n : Node) : Prop :=
  (∃ v ∈ n.literals, v.hasLongInteger = true) ∨
    ∃ rule ∈ n.rules, ∃ form, Rulebook.builtin.get? n.kind rule.name = some form ∧
      ∃ v ∈ form.looked rule, v.hasLongInteger = true

/-- A node that is written and has something about it that cannot be counted, or not be spelled. -/
structure IsDefective (n : Node) : Prop where
  notForbidden : n.isForbidden = false
  plain : n.guards = []
  source : n.HasUncountedVersions ∨ n.HasUncountedDots ∨ n.HasLongInteger

end Node

namespace Writing

/-- Writing a node comes to a node with a defect. -/
def MeetsDefect (levels : Nat) (root : Node) : Prop :=
  ∃ l n, Reaches levels root (l + 1) n ∧ n.IsDefective

/-! ## No other defects -/

/-- A contract for steps that end upon a defect under a condition only. -/
def defectsOnlyIf (condition : Prop) : Contract where
  change := fun _ _ => True
  failure := fun failure => ∀ d, failure = .defect d → condition
  refl := fun _ => trivial
  trans := fun _ _ => trivial
  note := fun _ _ => trivial
  refusal := fun _ _ _ _ h => by cases h

variable {setting : Setting} {levels : Nat} {root n : Node}

theorem allows_of_expressible {condition : Prop} (hrules : setting.rules = Rulebook.builtin)
    (hn : n.Expressible)
    (hsource : n.HasUncountedVersions ∨ n.HasUncountedDots ∨ n.HasLongInteger → condition) :
    (defectsOnlyIf condition).Allows setting n := by
  constructor
  · -- The first rule that fails is one of the table; addresses and long integers meet a defect.
    rintro target failure h d rfl
    obtain ⟨rule, hrule, path, h⟩ := allRuleCalls_error (applyRules_error h)
    obtain h | ⟨e, -, h⟩ | ⟨d', form, hform, h, hdefective⟩ := ruleCalls_error h
    · cases h
    · cases h
    · rw [hrules] at hform
      rcases Rulebook.builtin_defective hform hdefective with ⟨hkind, hname, honly⟩ | ⟨-, hlong⟩
      · have huncounted := (RuleForm.onlyVersion_error_iff _).1 ⟨d', honly⟩
        exact hsource (.inl ⟨hkind, rule, hrule, hname, huncounted⟩)
      · exact hsource (.inr (.inr (.inr ⟨rule, hrule, form, hform, hlong⟩)))
  · rintro v hv failure h d rfl
    rw [toLiteral_of_isExpressible (hn.literals v hv)] at h
    split at h
    · rename_i hlong
      exact hsource (.inr (.inr (.inl ⟨v, hv, hlong⟩)))
    · cases h
  · exact fun hkind guard hguard hshown _ _ => hsource (.inr (.inl ⟨hkind, guard, hguard, hshown⟩))

theorem write_defectsOnlyIf (hrules : setting.rules = Rulebook.builtin)
    (hroot : root.All Node.Expressible) :
    (defectsOnlyIf (MeetsDefect levels root)).Holds (fun _ => True)
      (write setting levels root) := by
  refine write_holds (I := fun l n => Reaches levels root l n) ?_ ?_ ?_ ?_ .root
  · rintro n - d ⟨⟩
  · exact fun l n m hreach hm => hreach.step hm
  · intro l n hreach hf hguards
    refine allows_of_expressible hrules (hreach.expressible hroot).self fun hsource => ?_
    exact ⟨l, n, hreach, hf, hguards, hsource⟩
  · exact fun _ _ => trivial

end Writing

/-! ## No way around the defect -/

theorem Value.short_of_toLiteral {v : Value} (h : v.isExpressible = true)
    (hliteral : v.toLiteral = .ok ()) : v.hasLongInteger = false := by
  rw [Writing.toLiteral_of_isExpressible h] at hliteral
  cases hlong : v.hasLongInteger with
  | false => rfl
  | true =>
    rw [hlong] at hliteral
    cases hliteral

namespace RuleForm

theorem numberLiterals_short {rule : Rule} {path : Path} {arity : Nat} {args : List Value}
    (h : rule.numberLiterals path arity = .ok args) :
    ∀ v ∈ rule.args.take arity, v.hasLongInteger = false := by
  obtain ⟨checked, hchecked, -⟩ := Outcome.bind_ok.1 h
  intro v hv
  obtain ⟨i, hi⟩ := List.mem_iff_getElem?.1 hv
  obtain ⟨harity, hget⟩ : i < arity ∧ rule.args[i]? = some v := by
    simpa [List.getElem?_take] using hi
  obtain ⟨w, hw⟩ := Outcome.mapM_ok_all hchecked i (List.mem_range.2 harity)
  obtain ⟨hget', hnumber, hfinite, hliteral⟩ := Rule.numberLiteral_ok hw
  obtain rfl : v = w := Option.some.inj (hget.symm.trans hget')
  exact Value.short_of_toLiteral
    (Value.isExpressible_of_isScalar (Value.isScalar_of_isNumber hnumber) hfinite) hliteral

theorem caseMethod_short {direction : Value} {path : Path} {name : String}
    (h : caseMethod direction path = .ok name) : direction.hasLongInteger = false := by
  unfold caseMethod at h
  split at h <;> first | rfl | cases h

theorem signMethod_short {sign : Value} {path : Path} {name : String}
    (h : signMethod sign path = .ok name) : sign.hasLongInteger = false := by
  unfold signMethod at h
  split at h <;> first | rfl | cases h

theorem boundDate_short {name : String} {rule : Rule} {path : Path} {date : Value}
    (h : boundDate name rule path = .ok date) (hliteral : date.toLiteral = .ok ()) :
    ∀ v ∈ rule.args.take 1, v.hasLongInteger = false := by
  obtain ⟨hmem, hdate, hfinite⟩ := boundDate_ok h
  have hscalar : date.isScalar = true := by
    rcases Bool.or_eq_true_iff.1 hdate with hdate | hdate
    · exact Value.isScalar_of_isNumber hdate
    · exact Value.isScalar_of_text hdate
  -- There is only one argument to look at.
  intro v hv
  obtain rfl : v = date := by
    cases hargs : rule.args with
    | nil => simp [hargs] at hv
    | cons first rest =>
      simp only [hargs, List.take_succ_cons, List.take_zero, List.mem_singleton] at hv hmem
      rw [hv, hmem]
  exact Value.short_of_toLiteral (Value.isExpressible_of_isScalar hscalar hfinite) hliteral

/-- The arguments of a rule that is written have no integers with too many digits among those that are
looked at. -/
theorem calls_short {form : RuleForm} {rule : Rule} {site : RuleSite} {calls : List Code.Call}
    (h : form.calls rule site = .ok calls) : ∀ v ∈ form.looked rule, v.hasLongInteger = false := by
  cases form with
  | method name arity =>
    obtain ⟨args, hargs, -⟩ := Outcome.bind_ok.1 h
    exact numberLiterals_short hargs
  | refinement predicate message arity =>
    simp only [RuleForm.calls, refinementCalls] at h
    split at h
    · cases h
    · obtain ⟨args, hargs, -⟩ := Outcome.bind_ok.1 h
      exact numberLiterals_short hargs
  | letterCase =>
    obtain ⟨name, hname, -⟩ := Outcome.bind_ok.1 h
    exact List.forall_mem_singleton.2 (caseMethod_short (Outcome.toWritten_ok.1 hname))
  | sign =>
    obtain ⟨name, hname, -⟩ := Outcome.bind_ok.1 h
    exact List.forall_mem_singleton.2 (signMethod_short (Outcome.toWritten_ok.1 hname))
  | dateBound name =>
    obtain ⟨date, hdate, h⟩ := Outcome.bind_ok.1 h
    obtain ⟨_, hliteral, -⟩ := Outcome.bind_ok.1 h
    exact boundDate_short (Outcome.toWritten_ok.1 hdate) hliteral
  | _ => exact fun v hv => by cases hv

end RuleForm

namespace Writing

variable {setting : Setting} {levels : Nat} {root n : Node} {child : ChildWriter} {p q : Progress}
  {target code : Code}

/-! ### Literals of a node that is written -/

theorem mapM_exactly_writes {values : List Value} {members : List Code}
    (h : values.mapM exactly = .ok members) : ∀ v ∈ values, v.toLiteral = .ok () := by
  intro v hv
  obtain ⟨code, hcode⟩ := Outcome.mapM_ok_all h v hv
  obtain ⟨_, hliteral, -⟩ := Outcome.bind_ok.1 hcode
  exact hliteral

theorem forM_toLiteral_writes {values : List Value} (h : values.forM Value.toLiteral = .ok ()) :
    ∀ v ∈ values, v.toLiteral = .ok () := by
  induction values with
  | nil => simp
  | cons v values ih =>
    obtain ⟨_, hv, h⟩ := Outcome.bind_ok.1 h
    exact List.forall_mem_cons.2 ⟨hv, ih h⟩

theorem complete_writes (h : complete n target p = .ok (code, q)) :
    ∀ v ∈ n.allow, v.toLiteral = .ok () := by
  obtain ⟨wider, p₁, hwider, -⟩ := bind_ok.1 h
  obtain ⟨members, hmembers, -⟩ := Outcome.bind_ok.1 (lift_ok.1 hwider).1
  intro v hv
  cases hnull : v.isNull with
  | false => exact mapM_exactly_writes hmembers v (by simp [hv, hnull])
  | true =>
    -- Null is accepted by a method, and could be written all the same.
    cases v with
    | null => rfl
    | _ => cases hnull

theorem listed_writes (h : listed n p = .ok (code, q)) : ∀ v ∈ n.valids, v.toLiteral = .ok () := by
  have hmembers : ∀ {p : Progress}, (do
      let members ← lift (n.valids.mapM exactly)
      return Code.union members : Write Code) p = .ok (code, q) →
        ∀ v ∈ n.valids, v.toLiteral = .ok () := by
    intro p h
    obtain ⟨members, p₁, hmembers, -⟩ := bind_ok.1 h
    exact mapM_exactly_writes (lift_ok.1 hmembers).1
  simp only [listed] at h
  split at h
  · cases h
  · split at h
    · obtain ⟨_, p₁, -, h⟩ := bind_ok.1 h
      exact hmembers h
    · exact hmembers h

theorem primitive_writes {base : Code} (h : primitive setting n base p = .ok (code, q)) :
    ∀ v ∈ n.valids ++ n.allow ++ n.invalids, v.toLiteral = .ok () := by
  -- What follows the list of values is the same whether there is one or not.
  have hrest : ∀ {listed : Code} {p : Progress}, (if n.invalids.isEmpty then
      pure listed >>= fun code => complete n code
      else lift (refuseInvalid setting n listed) >>= fun code => complete n code) p =
        .ok (code, q) → ∀ v ∈ n.allow ++ n.invalids, v.toLiteral = .ok () := by
    intro listed p h
    split at h
    · rename_i hempty
      simpa [List.isEmpty_iff.1 hempty] using complete_writes h
    · obtain ⟨refused, p₁, hrefused, hcomplete⟩ := bind_ok.1 h
      obtain ⟨_, hliterals, -⟩ := Outcome.bind_ok.1 (lift_ok.1 hrefused).1
      exact List.forall_mem_append.2 ⟨complete_writes hcomplete, forM_toLiteral_writes hliterals⟩
  simp only [primitive] at h
  obtain ⟨ruled, p₁, -, h⟩ := bind_ok.1 h
  rw [List.append_assoc]
  split at h
  · rename_i hempty
    simpa [List.isEmpty_iff.1 hempty] using hrest h
  · obtain ⟨listed, p₂, hlisted, h⟩ := bind_ok.1 h
    exact List.forall_mem_append.2 ⟨listed_writes hlisted, hrest h⟩

theorem completeComposite_writes (h : completeComposite n target p = .ok (code, q)) :
    ∀ v ∈ n.valids ++ n.allow ++ n.invalids, v.toLiteral = .ok () := by
  simp only [completeComposite] at h
  split at h
  · cases h
  · rename_i hnone
    obtain ⟨hvalids, hinvalids⟩ : n.valids = [] ∧ n.invalids = [] := by simpa using hnone
    simpa [hvalids, hinvalids] using complete_writes h

theorem body_writes (hf : n.isForbidden = false) (hguards : n.guards = [])
    (h : body setting child n p = .ok (code, q)) :
    ∀ v ∈ n.valids ++ n.allow ++ n.invalids, v.toLiteral = .ok () := by
  unfold body at h
  rw [hguards] at h
  cases hkind : n.kind
  case forbidden => simp [Node.isForbidden, hkind] at hf
  case object | array | alternatives =>
    simp only [hkind] at h
    obtain ⟨code', p₁, -, hcomplete⟩ := bind_ok.1 h
    exact completeComposite_writes hcomplete
  all_goals
    simp only [hkind, Code.base?] at h
    exact primitive_writes h

theorem modify_writes (h : modify setting n target = .ok code) :
    ∀ v ∈ n.flags.default.toList, v.toLiteral = .ok () := by
  obtain ⟨present, -, h⟩ := Outcome.bind_ok.1 h
  obtain ⟨defaulted, hdefault, -⟩ := Outcome.bind_ok.1 h
  unfold applyDefault at hdefault
  split at hdefault
  · rename_i hnone
    simp [hnone]
  · rename_i v hv
    obtain ⟨written, hwritten, -⟩ := Outcome.bind_ok.1 hdefault
    obtain ⟨literal, hliteral, -⟩ := Outcome.bind_ok.1 hwritten
    obtain ⟨_, hliteral, -⟩ := Outcome.bind_ok.1 hliteral
    simpa [hv] using hliteral

/-! ### Defects of a node that is written -/

theorem longInteger_ne_ok (hrules : setting.rules = Rulebook.builtin) (hn : n.Expressible)
    (h : n.HasLongInteger) (hf : n.isForbidden = false) (hplain : n.guards = []) :
    level setting child n p ≠ .ok (code, q) := by
  intro hrun
  simp only [level, hf, Bool.false_eq_true, if_false] at hrun
  obtain ⟨body, p₁, hbody, hrun⟩ := bind_ok.1 hrun
  obtain ⟨named, p₂, -, hmodify⟩ := bind_ok.1 hrun
  rcases h with ⟨v, hv, hlong⟩ | ⟨rule, hrule, form, hform, v, hv, hlong⟩
  · have hwritten : v.toLiteral = .ok () := by
      rcases List.mem_append.1 hv with hv | hv
      · exact body_writes hf hplain hbody v hv
      · exact modify_writes (lift_ok.1 hmodify).1 v hv
    have hshort := Value.short_of_toLiteral (hn.literals v hv) hwritten
    rw [hshort] at hlong
    cases hlong
  · obtain ⟨target, ruled, hruled⟩ := body_applies hf hplain hbody
    obtain ⟨calls, hcalls, -⟩ := applyRules_ok hruled
    obtain ⟨path, calls, hcalls⟩ := allRuleCalls_ok hcalls rule hrule
    rw [ruleCalls, hrules, hform] at hcalls
    have hshort := RuleForm.calls_short hcalls v hv
    rw [hshort] at hlong
    cases hlong

theorem uncounted_ruleCalls {rule : Rule} {path : Path} {calls : List Code.Call}
    (hrules : setting.rules = Rulebook.builtin) (hname : rule.name = "ip")
    (h : RuleForm.isUncounted (Rule.optionOf rule.firstArgument "version") = true) :
    ruleCalls setting .string rule path ≠ .ok calls := by
  obtain ⟨d, hd⟩ := (RuleForm.onlyVersion_error_iff _).2 h
  have hform : Rulebook.builtin.get? .string "ip" = some .ip := by decide
  intro hcalls
  simp only [ruleCalls, hrules, hname, hform, RuleForm.calls, hd] at hcalls
  cases hcalls

theorem uncountedVersions_ne_ok (hrules : setting.rules = Rulebook.builtin)
    (h : n.HasUncountedVersions) (hf : n.isForbidden = false) (hplain : n.guards = []) :
    body setting child n p ≠ .ok (code, q) := by
  intro hrun
  obtain ⟨hkind, rule, hrule, hname, hversions⟩ := h
  obtain ⟨target, ruled, hruled⟩ := body_applies hf hplain hrun
  obtain ⟨calls, hcalls, -⟩ := applyRules_ok hruled
  obtain ⟨path, calls, hcalls⟩ := allRuleCalls_ok hcalls rule hrule
  rw [hkind] at hcalls
  exact uncounted_ruleCalls hrules hname hversions hcalls

/-- Every conditional of a property that is written reads its reference. -/
theorem property_ok {name : String} {key : Node} {property : Property}
    (h : Writing.property setting child name key p = .ok (property, q)) :
    ∀ guard ∈ key.guards, ∃ access, guard.reference.access name guard.path = .ok access := by
  intro guard hguard
  cases hguards : key.guards with
  | nil => simp [hguards] at hguard
  | cons first rest =>
    simp only [Writing.property, hguards] at h
    obtain ⟨r, q', hfield, -⟩ := bind_ok.1 h
    simp only [guardedField] at hfield
    split at hfield
    · cases hfield
    · obtain ⟨selections, q'', hselections, -⟩ := bind_ok.1 hfield
      obtain ⟨p', selection, q₁, hselection⟩ := mapM_ok hselections guard hguard
      obtain ⟨access, p₁, haccess, -⟩ := bind_ok.1 hselection
      exact ⟨access, (lift_ok.1 haccess).1⟩

theorem uncountedDots_ne_ok (h : n.HasUncountedDots) (hplain : n.guards = []) :
    body setting child n p ≠ .ok (code, q) := by
  intro hrun
  obtain ⟨hkind, guard, hguard, hshown⟩ := h
  obtain ⟨key, hkey, hguard⟩ := List.mem_flatMap.1 hguard
  simp only [body, hplain, hkind] at hrun
  obtain ⟨code, q', hobject, -⟩ := bind_ok.1 hrun
  obtain ⟨properties, q'', hproperties, -⟩ := bind_ok.1 hobject
  obtain ⟨p', property, q₁, hproperty⟩ := mapM_ok hproperties key hkey
  obtain ⟨access, haccess⟩ := property_ok hproperty guard hguard
  exact Reference.access_ne_ok hshown haccess

theorem level_ne_ok (hrules : setting.rules = Rulebook.builtin) (hn : n.Expressible)
    (h : n.IsDefective) : level setting child n p ≠ .ok (code, q) := by
  rcases h.source with hversions | hdots | hlong
  · intro hrun
    simp only [level, h.notForbidden, Bool.false_eq_true, if_false] at hrun
    obtain ⟨body, q', hbody, -⟩ := bind_ok.1 hrun
    exact uncountedVersions_ne_ok hrules hversions h.notForbidden h.plain hbody
  · intro hrun
    simp only [level, h.notForbidden, Bool.false_eq_true, if_false] at hrun
    obtain ⟨body, q', hbody, -⟩ := bind_ok.1 hrun
    exact uncountedDots_ne_ok hdots h.plain hbody
  · exact longInteger_ne_ok hrules hn hlong h.notForbidden h.plain

theorem write_ne_ok (hrules : setting.rules = Rulebook.builtin) (hroot : root.All Node.Expressible)
    (h : MeetsDefect levels root) (p q : Progress) (code : Code) :
    write setting levels root p ≠ .ok (code, q) := by
  intro hrun
  obtain ⟨l, n, hreach, hn⟩ := h
  obtain ⟨p', b, q', -, hb, -⟩ := hreach.ran hrun
  exact level_ne_ok hrules (hreach.expressible hroot).self hn hb

end Writing

namespace Compiler

/-- A description that is refused with an error that cannot be put into words. -/
def IsUnspeakable (options : Options) (raw : Value) : Prop :=
  ∃ e, Node.ofValue options.maxDepth raw = .error e ∧ e.cause.isSpelled = false

/-- With the rules that are supported from the start, a compilation that is not rejected gives a
result unless the error about the description has too many digits in it, or writing comes to something
that cannot be counted or not be spelled; then it ends upon a defect. -/
theorem compile_defect_iff (options : Options) (raw : Value) :
    (∃ d, Compiler.compile ⟨options, Rulebook.builtin⟩ (.tree raw) = .error (.defect d)) ↔
      (IsUnspeakable options raw ∨ ∃ root, Node.ofValue options.maxDepth raw = .ok root ∧
        Writing.MeetsDefect options.maxDepth root) ∧
      ∀ e, Compiler.compile ⟨options, Rulebook.builtin⟩ (.tree raw) ≠ .error (.rejected e) := by
  unfold IsUnspeakable
  cases hread : Node.ofValue options.maxDepth raw with
  | error e =>
    rw [compile_of_unread (c := ⟨options, Rulebook.builtin⟩) hread]
    cases hspelled : e.cause.isSpelled with
    | true => simp [Failure.ofError, hspelled]
    | false => simp [Failure.ofError, hspelled]
  | ok root =>
    rw [compile_of_read (c := ⟨options, Rulebook.builtin⟩) hread]
    have hroot : root.All Node.Expressible := Node.read_expressible hread
    constructor
    · rintro ⟨d, h⟩
      refine ⟨.inr ⟨root, rfl, ?_⟩, fun e he => by rw [h] at he; cases he⟩
      have hrun : (Writing.defectsOnlyIf (Writing.MeetsDefect options.maxDepth root)).Holds
          (fun _ => True) (Writing.write (setting ⟨options, Rulebook.builtin⟩) _ root) :=
        Writing.write_defectsOnlyIf rfl hroot
      exact hrun.2 {} _ (compileNode_error.1 h) d rfl
    · rintro ⟨⟨_, ⟨⟩, -⟩ | ⟨_, ⟨⟩, hmeets⟩, hrejected⟩
      -- No result and no error leaves a defect.
      cases hresult : compileNode ⟨options, Rulebook.builtin⟩ root with
      | ok result =>
        obtain ⟨top, progress, hrun, -⟩ := compileNode_ok.1 hresult
        exact absurd hrun (Writing.write_ne_ok rfl hroot hmeets _ _ _)
      | error failure =>
        cases failure with
        | rejected e => exact absurd hresult (hrejected e)
        | defect d => exact ⟨d, rfl⟩

/-- A string that has to be an address of version 4, given as a number. -/
theorem compile_numeric_version :
    Compiler.compile {} (.tree (.map [(.str "type", .str "string"), (.str "rules", .list [.map
      [(.str "name", .str "ip"), (.str "args", .list [.map [(.str "version", .int 4)]])]])])) =
      .error (.defect .uncountedVersions) := by
  rfl

/-- A property that depends on a value more levels above it than dots can be written. -/
example : Compiler.compile {} (.tree (.map [(.str "type", .str "object"), (.str "keys", .map
      [(.str "a", .map [(.str "type", .str "string"), (.str "whens", .list [.map
        [(.str "ref", .map [(.str "path", .list [.str "b"]), (.str "ancestor", .int (10 ^ 20))]),
          (.str "is", .map [(.str "type", .str "any")]),
          (.str "then", .map [(.str "type", .str "string")])]])])])])) =
      .error (.defect .uncountedDots) := by
  rfl

end Compiler

end Schemata
