import Schemata.Proofs.DeclarationOrder
/-!
Properties that say nothing about their presence.

Such a property has the presence of the options, but not in the way a property has one that says so.
A presence that is said comes before the dropping of a value, one that is left to the options comes
after it, and no property is forbidden by the options. `modifiers_commute_iff` says when the order of
the two makes no difference, and `body_made` that only alternatives can be written like a missing value.

Component: the writer of properties, `Writing.field`. Main results:
- `modifiers_commute_iff` — when a presence and the dropping of a value can change places;
- `required_absent_iff` — when a property is written like a missing value;
- `field_implicit_iff` — when a presence that is left to the options is written like one that is
  said.
-/

namespace Schemata

namespace Node

def withPresence (n : Node) (presence : Presence) : Node :=
  { n with flags := { n.flags with presence := some presence } }

end Node

/-- The presence that a property gets which says nothing about it. -/
def Options.assumedPresence (options : Options) : Presence :=
  if options.defaultPresence = .optional then .optional else .required

/-- Whether a presence can be written with the features that the options allow. -/
def Options.allowsPresence (options : Options) (presence : Presence) : Bool :=
  presence == .optional || options.refinements

namespace Writing

/-- What a run has written looks like, without the declarations and the notes it made. -/
def fragment (outcome : Written (Code × Progress)) : Written (String × Precedence) :=
  (outcome.map Prod.fst).map Code.appearance

/-- The code of a node before its presence, default and strip. -/
def unmodified (setting : Setting) (child : ChildWriter) (n : Node) : Write Code := do
  let code ← body setting child n
  named n code

/-! ## The order of two modifiers -/

section Modifiers
variable {setting : Setting} {n : Node} {presence : Presence}

theorem applyStrip_eq_ok (h : n.flags.strip ≠ some true) (code : Code) :
    applyStrip setting n code = .ok code := if_neg h

theorem applyPresence_eq_ok (h : n.changesPresence = false) (code : Code) :
    applyPresence setting n code = .ok code := by
  simp only [Node.changesPresence, Bool.or_eq_false_iff, beq_eq_false_iff_ne] at h
  unfold applyPresence
  split
  · exact absurd ‹_› h.1
  · rename_i hrequired
    have hany := h.2
    simp only [hrequired, beq_self_eq_true, Bool.true_and, Bool.and_eq_false_iff,
      beq_eq_false_iff_ne] at hany
    refine if_neg fun hboth => ?_
    rcases hany with hkind | hvalids
    · exact hkind hboth.1
    · rw [hboth.2] at hvalids
      cases hvalids
  · rfl

/-- The code that a method is called on, as text. -/
def targetText (target : Code) : String :=
  if target.precedence = .conditional then "(" ++ target.text ++ ")" else target.text

theorem chain_text (target : Code) (call : Code.Call) :
    (target.chain call).text = targetText target ++ "." ++
      Text.callText call.method (Code.texts call.args) := rfl

/-- Texts of two method calls on the same code differ if the first methods start differently. -/
theorem chain_chain_ne {target : Code} {first second first' second' : Code.Call} {c c' : Char}
    (hc : first.method.toList.head? = some c) (hc' : first'.method.toList.head? = some c')
    (hne : c ≠ c') :
    ((target.chain first).chain second).text ≠ ((target.chain first').chain second').text := by
  intro heq
  have htarget : ∀ call : Code.Call, targetText (target.chain call) = (target.chain call).text :=
    fun _ => rfl
  have hlists := congrArg String.toList heq
  simp only [chain_text _ second, chain_text _ second', htarget, chain_text target, Text.callText,
    String.toList_append, List.append_assoc, List.append_cancel_left_eq] at hlists
  have hheads := congrArg List.head? hlists
  simp only [List.head?_append, hc, hc', Option.some_or, Option.some.injEq] at hheads
  exact hne hheads

/-- The method call that drops a value. -/
def stripCall : Code.Call := ⟨"transform", [.raw "() => undefined" .call]⟩

theorem applyStrip_eq_ite (h : n.flags.strip = some true) (code : Code) :
    applyStrip setting n code =
      if setting.options.strip then .ok (code.chain stripCall)
      else .error (.rejected ⟨.unsupported .strip, (n.path.key "flags").key "strip"⟩) := if_pos h

/-- The method call that says a presence, if one is needed. -/
def presenceCall : Presence → Code.Call
  | .optional => ⟨"optional", []⟩
  | _ => ⟨"refine", [.raw "(value) => value !== undefined" .call, Code.message "Required"]⟩

theorem applyPresence_eq_ite (h : (n.withPresence presence).changesPresence = true) (code : Code) :
    applyPresence setting (n.withPresence presence) code =
      if setting.options.allowsPresence presence then .ok (code.chain (presenceCall presence))
      else .error (.rejected ⟨.unsupported .requiredAny, n.path⟩) := by
  cases presence with
  | optional => rfl
  | forbidden => simp [Node.changesPresence, Node.withPresence] at h
  | required =>
    have hany : n.kind = .any ∧ n.valids.isEmpty = true := by
      simpa [Node.changesPresence, Node.withPresence] using h
    exact if_pos hany

/-- Dropping a value and saying its presence can change places exactly if one of them adds nothing, or
if one of them fails and the other does not. -/
theorem modifiers_commute_iff (code : Code) :
    (applyStrip setting n code >>= applyPresence setting (n.withPresence presence)).map
          Code.appearance =
        (applyPresence setting (n.withPresence presence) code >>= applyStrip setting n).map
          Code.appearance ↔
      n.flags.strip ≠ some true ∨ (n.withPresence presence).changesPresence = false ∨
        setting.options.allowsPresence presence ≠ setting.options.strip := by
  by_cases hstrip : n.flags.strip = some true
  case neg =>
    have hkeeps : applyStrip setting n = pure := funext (applyStrip_eq_ok hstrip)
    simp only [hkeeps, pure_bind, bind_pure, hstrip, ne_eq, not_false_eq_true, true_or]
  cases hchanges : (n.withPresence presence).changesPresence with
  | false =>
    have hkeeps : applyPresence setting (n.withPresence presence) = pure :=
      funext (applyPresence_eq_ok hchanges)
    simp only [hkeeps, pure_bind, bind_pure, true_or, or_true]
  | true =>
    have hstart : ∃ c, (presenceCall presence).method.toList.head? = some c ∧ 't' ≠ c := by
      cases presence <;> exact ⟨_, rfl, by decide⟩
    obtain ⟨c, hc, hne⟩ := hstart
    -- Both have something to add: each of them is added, or fails with an error of its own.
    cases hallowed : setting.options.allowsPresence presence <;>
      cases hdrop : setting.options.strip <;>
      simp only [applyStrip_eq_ite hstrip, applyPresence_eq_ite hchanges, hallowed, hdrop, if_true,
        Bool.false_eq_true, if_false, Outcome.ok_bind, Outcome.error_bind, Code.appearance, Except.map,
        hstrip]
    case false.false => simp
    case false.true => simp
    case true.false => simp
    case true.true =>
      have htexts : ((code.chain stripCall).chain (presenceCall presence)).text ≠
          ((code.chain (presenceCall presence)).chain stripCall).text := chain_chain_ne rfl hc hne
      simp [htexts]

end Modifiers

/-! ## Implicit and explicit presence as two orders of the modifiers -/

section Fields
variable {setting : Setting} {child : ChildWriter} {n : Node} {presence : Presence}

theorem level_eq_unmodified (hf : n.isForbidden = false) : level setting child n =
    unmodified setting child n >>= fun code => lift (modify setting n code) := by
  simp [level, unmodified, hf]

/-- Presence is no part of what comes before the modifiers. -/
theorem unmodified_withPresence :
    unmodified setting child (n.withPresence presence) = unmodified setting child n := rfl

theorem modify_withoutDefault (hd : n.flags.default = none) (code : Code) :
    modify setting n code = applyPresence setting n code >>= applyStrip setting n := by
  have hkeeps : applyDefault n = pure := by
    funext code
    simp only [applyDefault, hd]
    rfl
  simp only [modify, hkeeps, pure_bind]

theorem assumedPresence_run (code : Code) :
    (if setting.options.defaultPresence = .optional then return code.chain ⟨"optional", []⟩
      else if n.kind = .any ∧ n.valids.isEmpty then lift (refuseMissing setting code n.path)
      else return code : Write Code) =
    lift (applyPresence setting (n.withPresence setting.options.assumedPresence) code) := by
  by_cases hoptional : setting.options.defaultPresence = .optional
  · simp only [Options.assumedPresence, if_pos hoptional]
    rfl
  · simp only [Options.assumedPresence, if_neg hoptional]
    by_cases hany : n.kind = .any ∧ n.valids.isEmpty
    · rw [if_pos hany]
      exact (congrArg lift (if_pos hany)).symm
    · rw [if_neg hany, ← lift_pure]
      exact (congrArg lift (if_neg hany)).symm

theorem field_implicit (hf : n.isForbidden = false) (hp : n.presence = none)
    (hd : n.flags.default = none) : field setting (level setting child) n =
      unmodified setting child n >>= fun code => lift (applyStrip setting n code >>=
        applyPresence setting (n.withPresence setting.options.assumedPresence)) := by
  have hkeeps : applyPresence setting n = pure := by
    refine funext (applyPresence_eq_ok ?_)
    rw [Node.presence] at hp
    simp [Node.changesPresence, hp]
  simp only [field, level_eq_unmodified hf, modify_withoutDefault hd, hkeeps, pure_bind, bind_assoc, hf,
    hp, hd, lift_bind]
  refine congrArg _ (funext fun code => congrArg _ (funext fun stripped => ?_))
  simpa using assumedPresence_run stripped

theorem field_explicit (hf : n.isForbidden = false) (hp : presence ≠ .forbidden)
    (hd : n.flags.default = none) : field setting (level setting child) (n.withPresence presence) =
      unmodified setting child n >>= fun code =>
        lift (applyPresence setting (n.withPresence presence) code >>= applyStrip setting n) := by
  have hf' : (n.withPresence presence).isForbidden = false := by
    rw [Node.isForbidden, Bool.or_eq_false_iff] at hf
    simp [Node.isForbidden, Node.withPresence, hf.1, hp]
  have hd' : (n.withPresence presence).flags.default = none := hd
  have hp' : (n.withPresence presence).presence.isSome = true := rfl
  simp only [field, level_eq_unmodified hf', modify_withoutDefault hd', unmodified_withPresence, hp',
    Bool.true_or, if_true, bind_pure]
  rfl

theorem field_forbidden :
    field setting (level setting child) (n.withPresence .forbidden) = pure Code.absent := by
  have hf : (n.withPresence .forbidden).isForbidden = true := by
    simp [Node.isForbidden, Node.withPresence]
  simp [field, level, hf]

/-- What is written after a step that is the same on both sides. -/
theorem fragment_bind_lift (x : Write Code) (f : Code → Written Code) (p : Progress) :
    fragment ((x >>= fun code => lift (f code)) p) = x p >>= fun r => (f r.1).map Code.appearance := by
  rw [bind_run]
  cases x p with
  | error failure => rfl
  | ok r =>
    simp only [Outcome.ok_bind]
    cases f r.1 <;> rfl

end Fields

end Writing

/-! ## Code that looks like the code for a missing value -/

namespace Code

/-- The function whose result all methods of a piece of code are called on. -/
def constructor? : Code → Option String
  | .call callee _ => some callee
  | .method target _ _ => target.constructor?
  | _ => none

/-- The functions that make schemas for values. -/
def constructors : List String :=
  ["z.string", "z.number", "z.boolean", "z.date", "z.any", "z.instanceof", "z.object", "z.array",
    "z.null", "z.literal", "z.union"]

/-- Code that is made by one of these functions, and methods called on it. -/
def IsMade (code : Code) : Prop := ∃ callee ∈ constructors, code.constructor? = some callee

/-- The text of code starts with the call of its constructor. -/
theorem begins_of_constructor? : ∀ {code : Code} {callee : String}, code.constructor? = some callee →
    code.precedence = .call ∧ (callee ++ "(").toList <+: code.text.toList
  | .call _ args, _, rfl => by
    refine ⟨rfl, (Text.join ", " (texts args) ++ ")").toList, ?_⟩
    simp [text, Text.callText]
  | .method target m args, callee, h => by
    obtain ⟨hcall, rest, hrest⟩ := @begins_of_constructor? target callee h
    refine ⟨rfl, rest ++ ("." ++ Text.callText m (texts args)).toList, ?_⟩
    simp [text, Text.methodText, hcall, ← hrest]

theorem constructors_ne_absent : ∀ callee ∈ constructors,
    ¬ (callee ++ "(").toList <+: absent.text.toList := by
  decide

theorem IsMade.not_looksLike {code : Code} (h : code.IsMade) : code.looksLike absent = false := by
  obtain ⟨callee, hmem, hcallee⟩ := h
  have hbegins := (begins_of_constructor? hcallee).2
  have hne : code.text ≠ absent.text :=
    fun heq => constructors_ne_absent callee hmem (heq ▸ hbegins)
  exact looksLike_of_text_ne hne

theorem IsMade.chain {code : Code} (h : code.IsMade) (call : Call) : (code.chain call).IsMade := h

theorem IsMade.chainAll {code : Code} (h : code.IsMade) (calls : List Call) :
    (code.chainAll calls).IsMade := by
  induction calls generalizing code with
  | nil => exact h
  | cons call calls ih => exact ih (h.chain call)

theorem isMade_call {callee : String} (h : callee ∈ constructors) (args : List Code) :
    (Code.call callee args).IsMade := ⟨callee, h, rfl⟩

theorem isMade_union {members : List Code} (h : ∀ m ∈ members, m.IsMade) : (union members).IsMade :=
  union_cases (fun m hm => h m (by simp [hm])) fun _ => isMade_call (by decide) _

theorem isMade_exactly (v : Value) : (exactly v).IsMade := by
  unfold exactly
  split
  · exact isMade_call (by decide) _
  · exact isMade_call (by decide) _

end Code

namespace Writing

section Absent
variable {setting : Setting} {child : ChildWriter} {n : Node} {target code : Code} {p q : Progress}

theorem mapM_exactly_made {values : List Value} {members : List Code}
    (h : values.mapM exactly = .ok members) : ∀ m ∈ members, m.IsMade := by
  intro m hm
  obtain ⟨v, -, hv⟩ := Outcome.mapM_ok_mem h m hm
  obtain ⟨_, -, hv⟩ := Outcome.bind_ok.1 hv
  cases hv
  exact Code.isMade_exactly v

theorem applyRules_made (ht : target.IsMade) (h : applyRules setting n target = .ok code) :
    code.IsMade := by
  obtain ⟨calls, -, rfl⟩ := applyRules_ok h
  exact ht.chainAll calls

theorem listed_made (h : listed n p = .ok (code, q)) : code.IsMade := by
  have hmembers : ∀ {p : Progress}, (do
      let members ← lift (n.valids.mapM exactly)
      return Code.union members : Write Code) p = .ok (code, q) → code.IsMade := by
    intro p h
    obtain ⟨members, p', hmembers, h⟩ := bind_ok.1 h
    cases h
    exact Code.isMade_union (mapM_exactly_made (lift_ok.1 hmembers).1)
  simp only [listed] at h
  split at h
  · cases h
  · split at h
    · obtain ⟨_, p', -, h⟩ := bind_ok.1 h
      exact hmembers h
    · exact hmembers h

theorem refuseInvalid_made (ht : target.IsMade) (h : refuseInvalid setting n target = .ok code) :
    code.IsMade := by
  obtain ⟨_, -, h⟩ := Outcome.bind_ok.1 h
  unfold addPredicate at h
  split at h <;> cases h
  exact ht.chain _

theorem acceptMore_made (ht : target.IsMade) (h : acceptMore n target = .ok code) : code.IsMade := by
  obtain ⟨members, hmembers, h⟩ := Outcome.bind_ok.1 h
  have hwider : (Code.union (target :: members)).IsMade :=
    Code.isMade_union (List.forall_mem_cons.2 ⟨ht, mapM_exactly_made hmembers⟩)
  cases h
  split <;> split
  · exact ht.chain _
  · exact hwider.chain _
  · exact ht
  · exact hwider

theorem complete_made (ht : target.IsMade) (h : complete n target p = .ok (code, q)) :
    code.IsMade := by
  obtain ⟨wider, p', hwider, h⟩ := bind_ok.1 h
  obtain ⟨_, q', -, h⟩ := bind_ok.1 h
  have hmade := acceptMore_made ht (lift_ok.1 hwider).1
  cases h
  unfold addDescription
  split
  · split
    · exact hmade
    · exact hmade.chain _
  · exact hmade

theorem primitive_made (ht : target.IsMade) (h : primitive setting n target p = .ok (code, q)) :
    code.IsMade := by
  -- What follows the list of values is the same whether there is one or not.
  have hlast : ∀ {given : Code} {p : Progress}, given.IsMade → (if n.invalids.isEmpty then
      pure given >>= fun code => complete n code
      else lift (refuseInvalid setting n given) >>= fun code => complete n code) p =
        .ok (code, q) → code.IsMade := by
    intro given p hgiven h
    split at h
    · exact complete_made hgiven h
    · obtain ⟨refused, p', hrefused, h⟩ := bind_ok.1 h
      exact complete_made (refuseInvalid_made hgiven (lift_ok.1 hrefused).1) h
  simp only [primitive] at h
  obtain ⟨ruled, p', hruled, h⟩ := bind_ok.1 h
  split at h
  · exact hlast (applyRules_made ht (lift_ok.1 hruled).1) h
  · obtain ⟨given, q', hgiven, h⟩ := bind_ok.1 h
    exact hlast (listed_made hgiven) h

theorem applyUnknown_made (ht : target.IsMade) : (applyUnknown setting n target).IsMade := by
  unfold applyUnknown
  repeat' split
  all_goals exact ht

theorem object_made (h : object setting child n p = .ok (code, q)) : code.IsMade := by
  obtain ⟨properties, p', -, h⟩ := bind_ok.1 h
  obtain ⟨ruled, q', hruled, h⟩ := bind_ok.1 h
  have hbase := Code.isMade_call (by decide : "z.object" ∈ Code.constructors)
    [.object (properties.map fun property => (property.name, property.code))]
  have hmade := applyRules_made (applyUnknown_made hbase) (lift_ok.1 hruled).1
  cases h
  unfold applyChecks
  split
  · exact hmade
  · exact hmade.chain _

theorem array_made (h : array setting child n p = .ok (code, q)) : code.IsMade := by
  obtain ⟨items, p', -, h⟩ := bind_ok.1 h
  exact applyRules_made (Code.isMade_call (by decide) _) (lift_ok.1 h).1

theorem completeComposite_made (ht : target.IsMade)
    (h : completeComposite n target p = .ok (code, q)) : code.IsMade := by
  simp only [completeComposite] at h
  split at h
  · cases h
  · exact complete_made ht h

/-- Only alternatives can be written as what one of their members is. -/
theorem body_made (hf : n.kind ≠ .forbidden) (ha : n.kind ≠ .alternatives)
    (h : body setting child n p = .ok (code, q)) : code.IsMade := by
  cases hguards : n.guards with
  | cons guard guards =>
    simp only [body, hguards] at h
    cases h
  | nil =>
    cases hkind : n.kind <;> simp only [body, hguards, hkind] at h
    case object =>
      obtain ⟨made, p', hmade, h⟩ := bind_ok.1 h
      exact completeComposite_made (object_made hmade) h
    case array =>
      obtain ⟨made, p', hmade, h⟩ := bind_ok.1 h
      exact completeComposite_made (array_made hmade) h
    case alternatives => exact absurd hkind ha
    case forbidden => exact absurd hkind hf
    all_goals exact primitive_made (Code.isMade_call (by decide) _) h

/-- Methods that say a presence or drop a value leave more text behind than a missing value has. -/
theorem chain_not_absent {call : Code.Call}
    (h : 13 ≤ (Text.callText call.method (Code.texts call.args)).length) :
    (target.chain call).looksLike Code.absent = false := by
  have hne : (target.chain call).text ≠ Code.absent.text := by
    intro heq
    have hlength := congrArg String.length heq
    have habsent : Code.absent.text.length = 13 := rfl
    rw [chain_text, habsent, String.length_append, String.length_append] at hlength
    have hdot : ".".length = 1 := rfl
    omega
  exact Code.looksLike_of_text_ne hne

/-- What a missing value looks like, as the outcome of a step. -/
abbrev absence : Written (String × Precedence) := .ok Code.absent.appearance

theorem ok_absence_iff :
    (Except.ok code : Written Code).map Code.appearance = absence ↔
      code.looksLike Code.absent = true := by
  simp [Except.map, Code.looksLike_iff]

theorem applyPresence_absent_iff :
    (applyPresence setting (n.withPresence .required) code).map Code.appearance = absence ↔
      (n.withPresence .required).changesPresence = false ∧ code.looksLike Code.absent = true := by
  cases hchanges : (n.withPresence .required).changesPresence with
  | false => simp [applyPresence_eq_ok hchanges, ok_absence_iff]
  | true =>
    have hlonger : (code.chain (presenceCall .required)).looksLike Code.absent = false :=
      chain_not_absent (by decide)
    rw [applyPresence_eq_ite hchanges]
    split
    · simp [ok_absence_iff, hlonger]
    · simp [Except.map]

/-- A property that is neither optional nor forbidden looks like a missing value exactly if nothing is
added to code that does. -/
theorem required_absent_iff :
    (applyStrip setting n code >>= applyPresence setting (n.withPresence .required)).map
        Code.appearance = absence ↔
      n.flags.strip ≠ some true ∧ (n.withPresence .required).changesPresence = false ∧
        code.looksLike Code.absent = true := by
  by_cases hstrip : n.flags.strip = some true
  · have hlonger : (code.chain stripCall).looksLike Code.absent = false :=
      chain_not_absent (by decide)
    rw [applyStrip_eq_ite hstrip]
    split
    · simp [Outcome.ok_bind, applyPresence_absent_iff, hlonger, hstrip]
    · simp [Outcome.error_bind, Except.map, hstrip]
  · simp [applyStrip_eq_ok hstrip, Outcome.ok_bind, applyPresence_absent_iff, hstrip]

/-- Before its modifiers, only alternatives without a name can look like a missing value. -/
theorem unmodified_absent (hf : n.kind ≠ .forbidden)
    (h : unmodified setting child n p = .ok (code, q)) (hlooks : code.looksLike Code.absent = true) :
    n.kind = .alternatives ∧ n.declaredName? = none := by
  obtain ⟨made, p', hmade, h⟩ := bind_ok.1 h
  cases hname : n.declaredName? with
  | some name =>
    -- A name binds more tightly than a call.
    simp only [named, hname] at h
    obtain ⟨rfl, -⟩ := declare_ok h
    simp [Code.looksLike, Code.appearance, Code.precedence, Code.absent] at hlooks
  | none =>
    simp only [named, hname] at h
    cases h
    by_cases hkind : n.kind = .alternatives
    · exact ⟨hkind, rfl⟩
    · rw [(body_made hf hkind hmade).not_looksLike] at hlooks
      cases hlooks

end Absent

section Levels
variable {setting : Setting} {child : ChildWriter} {n : Node}

theorem assumedPresence_eq (h : setting.options.defaultPresence ≠ .forbidden) :
    setting.options.assumedPresence = setting.options.defaultPresence := by
  cases hdefault : setting.options.defaultPresence with
  | forbidden => exact absurd hdefault h
  | required => simp [Options.assumedPresence, hdefault]
  | optional => simp [Options.assumedPresence, hdefault]

/-- A presence other than forbidden makes the same difference said or not, unless it has to change
places with the dropping of a value and cannot. -/
theorem implicit_iff_of_ne (hf : n.isForbidden = false) (hp : n.presence = none)
    (hd : n.flags.default = none) (hdefault : setting.options.defaultPresence ≠ .forbidden)
    (p : Progress) :
    fragment (field setting (level setting child) n p) =
        fragment (field setting (level setting child)
          (n.withPresence setting.options.defaultPresence) p) ↔
      (∃ failure, unmodified setting child n p = .error failure) ∨ n.flags.strip ≠ some true ∨
        (n.withPresence setting.options.defaultPresence).changesPresence = false ∨
        setting.options.allowsPresence setting.options.defaultPresence ≠ setting.options.strip := by
  rw [field_implicit hf hp hd, field_explicit hf hdefault hd, assumedPresence_eq hdefault,
    fragment_bind_lift, fragment_bind_lift]
  cases hrun : unmodified setting child n p with
  | error failure => exact ⟨fun _ => .inl ⟨failure, rfl⟩, fun _ => rfl⟩
  | ok r =>
    simp only [Outcome.ok_bind, reduceCtorEq, exists_false, false_or]
    exact modifiers_commute_iff r.1

/-- The options do not forbid a property: only one that is written like a missing value anyway looks
like a forbidden one. -/
theorem implicit_iff_of_forbidden (hf : n.isForbidden = false) (hp : n.presence = none)
    (hd : n.flags.default = none) (hdefault : setting.options.defaultPresence = .forbidden)
    (p : Progress) :
    fragment (field setting (level setting child) n p) =
        fragment (field setting (level setting child) (n.withPresence .forbidden) p) ↔
      n.kind = .alternatives ∧ n.declaredName? = none ∧ n.flags.strip ≠ some true ∧
        ∃ code q, unmodified setting child n p = .ok (code, q) ∧
          code.looksLike Code.absent = true := by
  have hkind : n.kind ≠ .forbidden := by
    intro hkind
    simp [Node.isForbidden, hkind] at hf
  have hassumed : setting.options.assumedPresence = .required := by
    simp [Options.assumedPresence, hdefault]
  have habsent : fragment ((pure Code.absent : Write Code) p) = absence := rfl
  rw [field_implicit hf hp hd, field_forbidden, hassumed, fragment_bind_lift, habsent]
  cases hrun : unmodified setting child n p with
  | error failure =>
    constructor
    · rintro ⟨⟩
    · rintro ⟨-, -, -, code, q, ⟨⟩, -⟩
  | ok r =>
    rw [Outcome.ok_bind, required_absent_iff]
    constructor
    · rintro ⟨hstrip, -, hlooks⟩
      obtain ⟨halternatives, hname⟩ := unmodified_absent hkind hrun hlooks
      exact ⟨halternatives, hname, hstrip, r.1, r.2, rfl, hlooks⟩
    · rintro ⟨halternatives, -, hstrip, code, q, hcode, hlooks⟩
      cases hcode
      refine ⟨hstrip, ?_, hlooks⟩
      simp [Node.changesPresence, Node.withPresence, halternatives]

end Levels

/-- A property that says nothing about presence and default is written like the same property with the
presence of the options said, exactly in these cases. If the levels are used up or the node fails before
its modifiers, both fail alike. A presence other than forbidden has to add nothing, or must not meet a
value that is dropped, or one of the two has to be refused while the other is not. A property that the
options forbid is written as if it were required, so it has to be written like a missing value anyway,
as only alternatives are. -/
theorem field_implicit_iff (setting : Setting) (levels : Nat) (n : Node) (p : Progress)
    (hf : n.isForbidden = false) (hp : n.presence = none) (hd : n.flags.default = none) :
    fragment (field setting (write setting levels) n p) =
        fragment (field setting (write setting levels)
          (n.withPresence setting.options.defaultPresence) p) ↔
      levels = 0 ∨
      if setting.options.defaultPresence = .forbidden then
        n.kind = .alternatives ∧ n.declaredName? = none ∧ n.flags.strip ≠ some true ∧
          ∃ code q, unmodified setting (write setting (levels - 1)) n p = .ok (code, q) ∧
            code.looksLike Code.absent = true
      else
        (∃ failure, unmodified setting (write setting (levels - 1)) n p = .error failure) ∨
          n.flags.strip ≠ some true ∨
          (n.withPresence setting.options.defaultPresence).changesPresence = false ∨
          setting.options.allowsPresence setting.options.defaultPresence ≠ setting.options.strip := by
  cases levels with
  | zero => exact ⟨fun _ => .inl rfl, fun _ => rfl⟩
  | succ below =>
    rw [Nat.add_sub_cancel, eq_false (Nat.succ_ne_zero below), false_or]
    split
    · rename_i hdefault
      rw [hdefault]
      exact implicit_iff_of_forbidden hf hp hd hdefault p
    · rename_i hdefault
      exact implicit_iff_of_ne hf hp hd hdefault p

/-- A named string that is required and dropped, and a dropped value of any kind where predicates are
refused: the first has nothing to refuse, the second fails alike. -/
theorem field_implicit_iff_dropped :
    let setting : Setting := ⟨{ defaultPresence := .required, refinements := false }, Rulebook.builtin⟩
    let named : Node := { kind := .string, flags := { strip := some true }, name := some "Name" }
    let anything : Node := { kind := .any, flags := { strip := some true } }
    (named.isForbidden = false ∧ named.presence = none ∧ named.flags.default = none ∧
      fragment (field setting (write setting 1) named {}) =
        fragment (field setting (write setting 1) (named.withPresence .required) {})) ∧
    (anything.isForbidden = false ∧ anything.presence = none ∧ anything.flags.default = none ∧
      fragment (field setting (write setting 1) anything {}) =
        fragment (field setting (write setting 1) (anything.withPresence .required) {})) := by
  intro setting named anything
  refine ⟨⟨rfl, rfl, rfl, ?_⟩, rfl, rfl, rfl, ?_⟩
  · have hkeeps : (named.withPresence .required).changesPresence = false := rfl
    exact (field_implicit_iff setting 1 named {} rfl rfl rfl).2 (.inr (.inr (.inr (.inl hkeeps))))
  · have hrefused : setting.options.allowsPresence .required ≠ setting.options.strip := by decide
    exact (field_implicit_iff setting 1 anything {} rfl rfl rfl).2
      (.inr (.inr (.inr (.inr hrefused))))

/-- A dropped string is optional in another place if it says so, and is not forbidden by options that
forbid it. -/
theorem field_implicit_differs :
    let optional : Setting := ⟨{}, Rulebook.builtin⟩
    let forbidden : Setting := ⟨{ defaultPresence := .forbidden }, Rulebook.builtin⟩
    let dropped : Node := { kind := .string, flags := { strip := some true } }
    let plain : Node := { kind := .string }
    fragment (field optional (write optional 1) dropped {}) =
        .ok ("z.string().transform(() => undefined).optional()", .call) ∧
      fragment (field optional (write optional 1) (dropped.withPresence .optional) {}) =
        .ok ("z.string().optional().transform(() => undefined)", .call) ∧
      fragment (field forbidden (write forbidden 1) plain {}) = .ok ("z.string()", .call) ∧
      fragment (field forbidden (write forbidden 1) (plain.withPresence .forbidden) {}) =
        .ok ("z.undefined()", .call) :=
  ⟨rfl, rfl, rfl, rfl⟩

end Writing

end Schemata
