import Schemata.Proofs.PathErasure
/-!
Two runs of the writer, side by side.

The writer is run on two nodes that differ in their paths only. A comparison says how the progress of
the two runs is related, which failures go together, and whether one run may fail while the other
goes on. Every step of the writer keeps the two runs together, since paths only get into notes, into
errors and beside declarations. The body of a node does not depend on its presence, default and strip
either: there it is enough that the two nodes have the same shape.

Component: the writer of nodes, run twice. Main results:
- `body_related` — nodes of the same shape have the same body;
- `write_related` — nodes that are equal without their paths are written alike.
-/

namespace Schemata

namespace Writing

/-! ## Comparisons -/

/-- Two runs end together: with the same value and related progress, or with failures that go
together. -/
def Ends {α : Type} (progress : Progress → Progress → Prop) (failures : Failure → Failure → Prop)
    (apart : Prop) : Written (α × Progress) → Written (α × Progress) → Prop
  | .ok (a, p), .ok (a', p') => a = a' ∧ progress p p'
  | .error failure, .error failure' => failures failure failure'
  | _, _ => apart

/-- What is asked of two runs. -/
structure Comparison where
  /-- How the progress of the two runs is related. -/
  progress : Progress → Progress → Prop
  /-- Which failures go together. -/
  failures : Failure → Failure → Prop
  /-- Whether one run may fail and the other go on. -/
  apart : Prop
  refl : ∀ failure, failures failure failure
  rejected : ∀ cause path path', failures (.rejected ⟨cause, path⟩) (.rejected ⟨cause, path'⟩)
  mixed : apart → ∀ failure failure', failures failure failure'
  note : ∀ {p p'}, progress p p' → ∀ notice path path',
    progress { p with notes := p.notes ++ [⟨notice, path⟩] }
      { p' with notes := p'.notes ++ [⟨notice, path'⟩] }
  declare : ∀ {p p'}, progress p p' → ∀ name body path path',
    Ends progress failures apart (Writing.declare name body path p)
      (Writing.declare name body path' p')

namespace Comparison

/-- Two steps keep two runs together. -/
def Relates (C : Comparison) {α : Type} (x y : Write α) : Prop :=
  ∀ p p', C.progress p p' → Ends C.progress C.failures C.apart (x p) (y p')

variable {C : Comparison} {α β γ : Type}

theorem ends_left (h : C.apart) (failure : Failure) (r : Written (α × Progress)) :
    Ends C.progress C.failures C.apart (.error failure) r := by
  cases r with
  | ok r => exact h
  | error failure' => exact C.mixed h failure failure'

theorem ends_right (h : C.apart) (failure : Failure) (r : Written (α × Progress)) :
    Ends C.progress C.failures C.apart r (.error failure) := by
  cases r with
  | ok r => exact h
  | error failure' => exact C.mixed h failure' failure

theorem relates_pure (a : α) : C.Relates (pure a) (pure a) := fun _ _ h => ⟨rfl, h⟩

theorem relates_bind {x y : Write α} {f g : α → Write β} (hxy : C.Relates x y)
    (hfg : ∀ a, C.Relates (f a) (g a)) : C.Relates (x >>= f) (y >>= g) := by
  intro p p' h
  have hends := hxy p p' h
  rw [bind_run, bind_run]
  cases hx : x p with
  | ok r =>
    rw [hx] at hends
    cases hy : y p' with
    | ok r' =>
      rw [hy] at hends
      obtain ⟨hvalue, hprogress⟩ : r.1 = r'.1 ∧ C.progress r.2 r'.2 := hends
      have hnext := hfg r.1 r.2 r'.2 hprogress
      rw [show g r.1 = g r'.1 from congrArg g hvalue] at hnext
      exact hnext
    | error failure' =>
      rw [hy] at hends
      exact ends_right hends failure' _
  | error failure =>
    rw [hx] at hends
    cases hy : y p' with
    | ok r' =>
      rw [hy] at hends
      exact ends_left hends failure _
    | error failure' =>
      rw [hy] at hends
      exact hends

theorem relates_lift_self (w : Written α) : C.Relates (lift w) (lift w) := by
  intro p p' h
  cases w with
  | ok a => exact ⟨rfl, h⟩
  | error failure => exact C.refl failure

theorem relates_reject (cause : Cause) (path path' : Path) :
    C.Relates (reject cause path : Write α) (reject cause path') :=
  fun _ _ _ => C.rejected cause path path'

theorem relates_reject_bind (cause : Cause) (path path' : Path) (f g : α → Write β) :
    C.Relates (reject cause path >>= f) (reject cause path' >>= g) := relates_reject cause path path'

/-- Checks that fail for the same reason. Whether the reason can be put into words does not depend on the
path. -/
theorem relates_error_bind (cause : Cause) (path path' : Path) (f g : α → Write β) :
    C.Relates (lift (Checked.toWritten (.error ⟨cause, path⟩)) >>= f)
      (lift (Checked.toWritten (.error ⟨cause, path'⟩)) >>= g) := by
  intro p p' _
  show C.failures (.ofError ⟨cause, path⟩) (.ofError ⟨cause, path'⟩)
  unfold Failure.ofError
  cases cause.isSpelled with
  | true => exact C.rejected cause path path'
  | false => exact C.refl _

theorem relates_note (notice : Notice) (path path' : Path) :
    C.Relates (Writing.note notice path) (Writing.note notice path') :=
  fun _ _ h => ⟨rfl, C.note h notice path path'⟩

theorem relates_ite {c : Prop} [Decidable c] {x y x' y' : Write α} (h : c → C.Relates x x')
    (h' : ¬c → C.Relates y y') : C.Relates (if c then x else y) (if c then x' else y') := by
  by_cases hc : c
  · simpa only [if_pos hc] using h hc
  · simpa only [if_neg hc] using h' hc

/-- Steps over two lists that have the same image are related if steps over items with the same image
are. -/
theorem relates_mapM {e : α → γ} {f g : α → Write β} {l l' : List α} (h : l.map e = l'.map e)
    (hfg : ∀ a a', e a = e a' → C.Relates (f a) (g a')) : C.Relates (l.mapM f) (l'.mapM g) := by
  induction l generalizing l' with
  | nil =>
    obtain rfl := List.map_eq_nil_iff.1 h.symm
    exact relates_pure []
  | cons a l ih =>
    cases l' with
    | nil => cases h
    | cons a' l' =>
      rw [List.map_cons, List.map_cons, List.cons.injEq] at h
      simp only [List.mapM_cons]
      refine relates_bind (hfg a a' h.1) fun b => relates_bind (ih h.2) fun bs => ?_
      exact relates_pure (b :: bs)

end Comparison

open Comparison

variable {C : Comparison}

theorem option_map_eq {α γ : Type} {e : α → γ} {a b : Option α} (h : a.map e = b.map e) :
    (a = none ∧ b = none) ∨ ∃ x y, a = some x ∧ b = some y ∧ e x = e y := by
  cases a with
  | none => exact .inl ⟨rfl, Option.map_eq_none_iff.1 h.symm⟩
  | some x =>
    obtain ⟨y, hy, hxy⟩ := Option.map_eq_some_iff.1 h.symm
    exact .inr ⟨x, y, rfl, hy, hxy.symm⟩

/-! ## Steps that only use their path in errors -/

section Values
variable {setting : Setting}

theorem failures_moveTo (failure : Failure) (path : Path) :
    C.failures failure (failure.moveTo path) := by
  cases failure with
  | rejected e => exact C.rejected e.cause e.path path
  | defect d => exact C.refl _

theorem ruleCalls_related (kind : Kind) (rule : Rule) (path path' : Path) :
    C.Relates (lift (ruleCalls setting kind rule path))
      (lift (ruleCalls setting kind rule path')) := by
  unfold ruleCalls
  cases hform : setting.rules.get? kind rule.name with
  | none => exact relates_reject _ _ _
  | some form =>
    simp only [← form.calls_moved rule ⟨kind, path, setting.options.refinements⟩ path']
    intro p p' h
    cases form.calls rule ⟨kind, path, setting.options.refinements⟩ with
    | ok calls => exact ⟨rfl, h⟩
    | error failure => exact failures_moveTo failure path'

theorem addPredicate_related (target test : Code) (message : String) (feature : Feature)
    (path path' : Path) : C.Relates (lift (addPredicate setting target test message feature path))
      (lift (addPredicate setting target test message feature path')) := by
  unfold addPredicate
  split
  · exact relates_lift_self _
  · exact relates_reject _ _ _

theorem refuseMissing_related (target : Code) (path path' : Path) :
    C.Relates (lift (refuseMissing setting target path)) (lift (refuseMissing setting target path')) :=
  addPredicate_related _ _ _ _ _ _

end Values

section Bodies
variable {setting : Setting} {n₁ n₂ : Node} (hn : n₁.Alike n₂)
include hn

theorem applyRules_related (target : Code) :
    C.Relates (lift (applyRules setting n₁ target)) (lift (applyRules setting n₂ target)) := by
  simp only [applyRules_eq, allRuleCalls, lift_bind, lift_pure, lift_mapM, bind_assoc, hn.kind, hn.rules]
  refine relates_bind (relates_mapM (e := id) rfl ?_) fun _ => relates_bind (relates_pure _) fun _ =>
    relates_pure _
  rintro ⟨rule, i⟩ _ rfl
  exact ruleCalls_related _ _ _ _

theorem listed_related : C.Relates (listed n₁) (listed n₂) := by
  simp only [listed, hn.kind, hn.rules, hn.valids]
  refine relates_ite (fun _ => relates_reject_bind _ _ _ _ _) fun _ => ?_
  have hmembers : C.Relates (lift (n₂.valids.mapM exactly) >>= fun members => pure (Code.union members))
      (lift (n₂.valids.mapM exactly) >>= fun members => pure (Code.union members)) :=
    relates_bind (relates_lift_self _) fun _ => relates_pure _
  exact relates_ite (fun _ => relates_bind (relates_note _ _ _) fun _ => hmembers) fun _ => hmembers

theorem refuseInvalid_related (target : Code) :
    C.Relates (lift (refuseInvalid setting n₁ target)) (lift (refuseInvalid setting n₂ target)) := by
  simp only [refuseInvalid, lift_bind, hn.invalids]
  exact relates_bind (relates_lift_self _) fun _ => addPredicate_related _ _ _ _ _ _

theorem noteLabel_related : C.Relates (noteLabel n₁) (noteLabel n₂) := by
  simp only [noteLabel, hn.label]
  split
  · exact relates_ite (fun _ => relates_pure ()) fun _ => relates_note _ _ _
  · exact relates_pure ()

theorem complete_related (target : Code) : C.Relates (complete n₁ target) (complete n₂ target) := by
  simp only [complete, acceptMore, hn.allow, addDescription, hn.description]
  refine relates_bind (relates_lift_self _) fun _ => ?_
  exact relates_bind (noteLabel_related hn) fun _ => relates_pure _

theorem primitive_related (base : Code) :
    C.Relates (primitive setting n₁ base) (primitive setting n₂ base) := by
  -- As in the contract of this step, what follows the list of values is stated first.
  have hinvalids : ∀ code, C.Relates
      (if n₂.invalids.isEmpty then pure code >>= fun code => complete n₁ code
        else lift (refuseInvalid setting n₁ code) >>= fun code => complete n₁ code)
      (if n₂.invalids.isEmpty then pure code >>= fun code => complete n₂ code
        else lift (refuseInvalid setting n₂ code) >>= fun code => complete n₂ code) :=
    fun code => relates_ite (fun _ => relates_bind (relates_pure code) fun _ => complete_related hn _)
      fun _ => relates_bind (refuseInvalid_related hn code) fun _ => complete_related hn _
  simp only [primitive, hn.valids, hn.invalids]
  refine relates_bind (applyRules_related hn base) fun ruled => ?_
  exact relates_ite (fun _ => relates_bind (relates_pure ruled) hinvalids)
    fun _ => relates_bind (listed_related hn) hinvalids

theorem completeComposite_related (target : Code) :
    C.Relates (completeComposite n₁ target) (completeComposite n₂ target) := by
  simp only [completeComposite, hn.valids, hn.invalids, hn.kind]
  exact relates_ite (fun _ => relates_reject_bind _ _ _ _ _) fun _ => complete_related hn target

theorem applyUnknown_eq (target : Code) :
    applyUnknown setting n₁ target = applyUnknown setting n₂ target := by
  rcases option_map_eq hn.keys with ⟨hk₁, hk₂⟩ | ⟨keys₁, keys₂, hk₁, hk₂, hkeys⟩
  · simp only [applyUnknown, hk₁, hk₂]
  · have hempty : keys₁.isEmpty = keys₂.isEmpty := by
      rw [← List.isEmpty_map (f := propertyWithoutPaths), hkeys, List.isEmpty_map]
    simp only [applyUnknown, hk₁, hk₂, hn.unknown, hempty]

theorem keys_map_eq : (n₁.keys.getD []).map propertyWithoutPaths =
    (n₂.keys.getD []).map propertyWithoutPaths := by
  rcases option_map_eq hn.keys with ⟨hk₁, hk₂⟩ | ⟨keys₁, keys₂, hk₁, hk₂, hkeys⟩
  · rw [hk₁, hk₂]
  · rw [hk₁, hk₂]
    exact hkeys

end Bodies

/-! ## Nodes below -/

section Children
variable {setting : Setting} {c₁ c₂ : ChildWriter}
  (hc : ∀ m₁ m₂ : Node, m₁.withoutPaths = m₂.withoutPaths → C.Relates (c₁ m₁) (c₂ m₂))
include hc

theorem field_related {m₁ m₂ : Node} (h : m₁.withoutPaths = m₂.withoutPaths) :
    C.Relates (field setting c₁ m₁) (field setting c₂ m₂) := by
  obtain ⟨hflags, hm⟩ := Node.flags_of_withoutPaths h
  simp only [field, Node.presence, hflags, Node.isForbidden_of_withoutPaths h, hm.kind, hm.valids]
  refine relates_bind (hc m₁ m₂ h) fun code => relates_ite (fun _ => relates_pure code) fun _ => ?_
  refine relates_ite (fun _ => relates_pure _) fun _ => ?_
  exact relates_ite (fun _ => refuseMissing_related _ _ _) fun _ => relates_pure code

/-- The two merged nodes are not the same, but they are without their paths. -/
theorem merged_related {base₁ base₂ branch₁ branch₂ : Node}
    (hbase : base₁.withoutPaths = base₂.withoutPaths)
    (hbranch : branch₁.withoutPaths = branch₂.withoutPaths) :
    C.Relates (lift (base₁.merge branch₁).toWritten >>= field setting c₁)
      (lift (base₂.merge branch₂).toWritten >>= field setting c₂) := by
  rcases Node.merge_alike hbase hbranch with ⟨m₁, m₂, h₁, h₂, hm⟩ | ⟨e₁, e₂, h₁, h₂, hcause⟩
  · rw [h₁, h₂]
    exact field_related hc hm
  · obtain ⟨cause₁, path₁⟩ := e₁
    obtain ⟨cause₂, path₂⟩ := e₂
    obtain rfl : cause₁ = cause₂ := hcause
    rw [h₁, h₂]
    exact relates_error_bind _ _ _ _ _

theorem branch_related {base₁ base₂ branch₁ branch₂ : Option Node}
    (hbase : base₁.map Node.withoutPaths = base₂.map Node.withoutPaths)
    (hbranch : branch₁.map Node.withoutPaths = branch₂.map Node.withoutPaths) :
    C.Relates (branch setting c₁ base₁ branch₁) (branch setting c₂ base₂ branch₂) := by
  rcases option_map_eq hbase with ⟨rfl, rfl⟩ | ⟨b₁, b₂, rfl, rfl, hb⟩ <;>
    rcases option_map_eq hbranch with ⟨rfl, rfl⟩ | ⟨m₁, m₂, rfl, rfl, hm⟩
  · exact relates_pure Code.absent
  · exact field_related hc hm
  · exact field_related hc hb
  · exact merged_related hc hb hm

theorem test_related {access : String} {case₁ case₂ : Case Node}
    (h : case₁.withoutPaths = case₂.withoutPaths) :
    C.Relates (test c₁ access case₁) (test c₂ access case₂) := by
  simp only [Case.withoutPaths, Case.mk.injEq] at h
  obtain ⟨hcondition, hnegated, -⟩ := h
  obtain ⟨hflags, -⟩ := Node.flags_of_withoutPaths hcondition
  simp only [test, Node.presence, hflags, hnegated]
  exact relates_bind (hc _ _ hcondition) fun _ => relates_pure _

omit hc in
theorem access_related (reference : Reference) (name : String) (path path' : Path) :
    C.Relates (lift (reference.access name path)) (lift (reference.access name path')) := by
  unfold Reference.access
  split
  · exact relates_lift_self _
  · split
    · exact relates_lift_self _
    · split
      · exact relates_reject _ _ _
      · exact relates_lift_self _

theorem selection_related {base₁ base₂ : Option Node} {name : String} {g₁ g₂ : Guard Node}
    (hbase : base₁.map Node.withoutPaths = base₂.map Node.withoutPaths)
    (h : g₁.withoutPaths = g₂.withoutPaths) :
    C.Relates (selection setting c₁ base₁ name g₁) (selection setting c₂ base₂ name g₂) := by
  simp only [Guard.withoutPaths, Guard.mk.injEq, and_true] at h
  obtain ⟨hreference, hcases, hotherwise⟩ := h
  simp only [selection, hreference]
  refine relates_bind (access_related _ _ _ _) fun access => ?_
  refine relates_bind (relates_mapM hcases fun _ _ h => test_related hc h) fun tests => ?_
  refine relates_bind (relates_mapM hcases fun _ _ h => branch_related hc hbase ?_) fun branches => ?_
  · simpa only [Case.withoutPaths] using congrArg Case.branch h
  refine relates_bind (branch_related hc hbase hotherwise) fun otherwise => ?_
  exact relates_bind (relates_note _ _ _) fun _ => relates_pure _

theorem guardedField_related {name : String} {m₁ m₂ : Node} {first₁ first₂ : Guard Node}
    (h : m₁.withoutPaths = m₂.withoutPaths) :
    C.Relates (guardedField setting c₁ name m₁ first₁) (guardedField setting c₂ name m₂ first₂) := by
  obtain ⟨-, hm⟩ := Node.flags_of_withoutPaths h
  have hbase : (guardBase m₁).map Node.withoutPaths = (guardBase m₂).map Node.withoutPaths := by
    rw [← guardBase_withoutPaths, ← guardBase_withoutPaths, h]
  simp only [guardedField]
  refine relates_ite (fun _ => relates_reject_bind _ _ _ _ _) fun _ => ?_
  refine relates_bind (relates_mapM hm.guards fun _ _ hg => selection_related hc hbase hg) fun _ => ?_
  exact relates_pure _

theorem property_related {name : String} {m₁ m₂ : Node} (h : m₁.withoutPaths = m₂.withoutPaths) :
    C.Relates (property setting c₁ name m₁) (property setting c₂ name m₂) := by
  have hguards := (Node.flags_of_withoutPaths h).2.guards
  unfold property
  cases hg₁ : m₁.guards with
  | nil =>
    rw [hg₁] at hguards
    rw [List.map_eq_nil_iff.1 hguards.symm]
    exact relates_bind (field_related hc h) fun _ => relates_pure _
  | cons first₁ rest₁ =>
    cases hg₂ : m₂.guards with
    | nil => rw [hg₁, hg₂] at hguards; cases hguards
    | cons first₂ rest₂ => exact relates_bind (guardedField_related hc h) fun _ => relates_pure _

variable {n₁ n₂ : Node} (hn : n₁.Alike n₂)
include hn

theorem object_related : C.Relates (object setting c₁ n₁) (object setting c₂ n₂) := by
  refine relates_bind (relates_mapM (keys_map_eq hn) ?_) fun properties => ?_
  · rintro ⟨name, m₁⟩ ⟨name₂, m₂⟩ hkey
    simp only [propertyWithoutPaths, Prod.mk.injEq] at hkey
    obtain ⟨rfl, hm⟩ := hkey
    exact property_related hc hm
  · simp only [applyUnknown_eq hn]
    exact relates_bind (applyRules_related hn _) fun _ => relates_pure _

theorem array_related : C.Relates (array setting c₁ n₁) (array setting c₂ n₂) :=
  relates_bind (relates_mapM hn.items hc) fun _ => applyRules_related hn _

theorem alternatives_related : C.Relates (alternatives setting c₁ n₁) (alternatives setting c₂ n₂) :=
  relates_bind (relates_mapM hn.members hc) fun _ => applyRules_related hn _

/-- Nodes of the same shape have the same body. -/
theorem body_related : C.Relates (body setting c₁ n₁) (body setting c₂ n₂) := by
  have hguards := hn.guards
  unfold body
  rw [hn.kind]
  cases hg₁ : n₁.guards with
  | cons guard₁ rest₁ =>
    cases hg₂ : n₂.guards with
    | nil => rw [hg₁, hg₂] at hguards; cases hguards
    | cons guard₂ rest₂ => exact relates_reject _ _ _
  | nil =>
    rw [hg₁] at hguards
    rw [List.map_eq_nil_iff.1 hguards.symm]
    cases n₂.kind
    case object => exact relates_bind (object_related hc hn) fun _ => completeComposite_related hn _
    case array => exact relates_bind (array_related hc hn) fun _ => completeComposite_related hn _
    case alternatives =>
      exact relates_bind (alternatives_related hc hn) fun _ => completeComposite_related hn _
    case forbidden => exact relates_pure Code.absent
    all_goals exact primitive_related hn _

end Children

/-! ## Whole nodes -/

theorem named_related {n₁ n₂ : Node} (h : n₁.name = n₂.name) (code : Code) :
    C.Relates (named n₁ code) (named n₂ code) := by
  have hname : n₁.declaredName? = n₂.declaredName? := by rw [Node.declaredName?, Node.declaredName?, h]
  unfold named
  rw [hname]
  cases n₂.declaredName? with
  | none => exact relates_pure code
  | some name => exact fun p p' h' => C.declare h' name code n₁.path n₂.path

theorem modify_related {setting : Setting} {n₁ n₂ : Node} (h : n₁.withoutPaths = n₂.withoutPaths)
    (code : Code) : C.Relates (lift (modify setting n₁ code)) (lift (modify setting n₂ code)) := by
  obtain ⟨hflags, hn⟩ := Node.flags_of_withoutPaths h
  have hpresence : ∀ code, C.Relates (lift (applyPresence setting n₁ code))
      (lift (applyPresence setting n₂ code)) := by
    intro code
    simp only [applyPresence, hflags, hn.kind, hn.valids]
    split
    · exact relates_lift_self _
    · split
      · exact refuseMissing_related _ _ _
      · exact relates_lift_self _
    · exact relates_lift_self _
  have hdefault : ∀ code, applyDefault n₁ code = applyDefault n₂ code := by
    intro code
    simp only [applyDefault, defaultCode, hflags, hn.kind]
  have hstrip : ∀ code, C.Relates (lift (applyStrip setting n₁ code))
      (lift (applyStrip setting n₂ code)) := by
    intro code
    simp only [applyStrip, hflags]
    split
    · split
      · exact relates_lift_self _
      · exact relates_reject _ _ _
    · exact relates_lift_self _
  simp only [modify, lift_bind, hdefault]
  exact relates_bind (hpresence code) fun _ => relates_bind (relates_lift_self _) fun _ => hstrip _

theorem level_related {setting : Setting} {c₁ c₂ : ChildWriter}
    (hc : ∀ m₁ m₂ : Node, m₁.withoutPaths = m₂.withoutPaths → C.Relates (c₁ m₁) (c₂ m₂)) {n₁ n₂ : Node}
    (h : n₁.withoutPaths = n₂.withoutPaths) :
    C.Relates (level setting c₁ n₁) (level setting c₂ n₂) := by
  obtain ⟨-, hn⟩ := Node.flags_of_withoutPaths h
  simp only [level, Node.isForbidden_of_withoutPaths h]
  refine relates_ite (fun _ => relates_pure Code.absent) fun _ => ?_
  refine relates_bind (body_related hc hn) fun code => relates_bind (named_related hn.name code) fun _ => ?_
  exact modify_related h _

/-- Nodes that are equal without their paths are written alike. Where one run may fail alone, they may
be written with different numbers of levels left. -/
theorem write_related (setting : Setting) {l₁ l₂ : Nat} (hl : l₁ = l₂ ∨ C.apart) {n₁ n₂ : Node}
    (h : n₁.withoutPaths = n₂.withoutPaths) :
    C.Relates (write setting l₁ n₁) (write setting l₂ n₂) := by
  induction l₁ generalizing l₂ n₁ n₂ with
  | zero =>
    rcases hl with rfl | hl
    · exact relates_reject _ _ _
    · exact fun p p' _ => ends_left hl _ _
  | succ l₁ ih =>
    cases l₂ with
    | zero =>
      rcases hl with hl | hl
      · cases hl
      · exact fun p p' _ => ends_right hl _ _
    | succ l₂ =>
      exact level_related (fun _ _ hm => ih (hl.imp_left Nat.succ.inj) hm) h

end Writing

end Schemata
