import Schemata.Proofs.Contract
import Schemata.Writing.Node
/-!
Runs that others cut short.

Some options only forbid: without predicates, without dropped values or with fewer levels, a run does
what it does otherwise until it comes to the first thing that is forbidden. `CutShort stops x y` says
that `x` has the outcome of `y`, or ends with one of the errors that `stops` names. Steps that are put
together from steps of this kind are of this kind, so each function of the writer is followed once, for
two settings of which one allows less than the other.

Component: the writer of nodes under two settings. Main results:
- `write_cutShort` — writing with less allowed, or with fewer levels, is cut short.
-/

namespace Schemata

/-! ## Outcomes and steps -/

/-- A run has the outcome of another one, or it was stopped. -/
def Outcome.CutShort {ε α : Type} (stops : ε → Prop) (x y : Except ε α) : Prop :=
  x = y ∨ ∃ e, stops e ∧ x = .error e

namespace Outcome.CutShort

variable {ε α β : Type} {stops : ε → Prop}

theorem refl (x : Except ε α) : CutShort stops x x := .inl rfl

theorem stopped {y : Except ε α} {e : ε} (h : stops e) : CutShort stops (.error e) y :=
  .inr ⟨e, h, rfl⟩

/-- The second steps only have to be compared for results of the first one. -/
theorem bind_of {x y : Except ε α} {f g : α → Except ε β} (hx : CutShort stops x y)
    (hf : ∀ a, y = .ok a → CutShort stops (f a) (g a)) : CutShort stops (x >>= f) (y >>= g) := by
  rcases hx with rfl | ⟨e, he, rfl⟩
  · cases x with
    | error e => exact refl _
    | ok a => exact hf a rfl
  · exact stopped he

theorem bind {x y : Except ε α} {f g : α → Except ε β} (hx : CutShort stops x y)
    (hf : ∀ a, CutShort stops (f a) (g a)) : CutShort stops (x >>= f) (y >>= g) :=
  hx.bind_of fun a _ => hf a

theorem mapM {f g : α → Except ε β} {l : List α} (h : ∀ a ∈ l, CutShort stops (f a) (g a)) :
    CutShort stops (l.mapM f) (l.mapM g) := by
  induction l with
  | nil => exact refl _
  | cons a l ih =>
    rw [List.mapM_cons, List.mapM_cons]
    apply bind (h a List.mem_cons_self)
    intro b
    apply bind (ih fun a' ha' => h a' (List.mem_cons_of_mem _ ha'))
    intro bs
    exact refl _

theorem foldlM {f g : β → α → Except ε β} {l : List α} (h : ∀ b a, CutShort stops (f b a) (g b a))
    (b : β) : CutShort stops (l.foldlM f b) (l.foldlM g b) := by
  induction l generalizing b with
  | nil => exact refl _
  | cons a l ih =>
    rw [List.foldlM_cons, List.foldlM_cons]
    exact (h b a).bind ih

end Outcome.CutShort

namespace Writing

/-- From the same progress, a step has the outcome of another one, or it is stopped. -/
def CutShort {α : Type} (stops : Failure → Prop) (x y : Write α) : Prop :=
  ∀ p, Outcome.CutShort stops (x p) (y p)

namespace CutShort

variable {α β : Type} {stops : Failure → Prop}

theorem refl (x : Write α) : CutShort stops x x := fun p => .refl (x p)

theorem bind {x y : Write α} {f g : α → Write β} (hx : CutShort stops x y)
    (hf : ∀ a, CutShort stops (f a) (g a)) : CutShort stops (x >>= f) (y >>= g) := by
  intro p
  rw [bind_run, bind_run]
  apply (hx p).bind
  intro r
  exact hf r.1 r.2

theorem mapM {f g : α → Write β} {l : List α} (h : ∀ a ∈ l, CutShort stops (f a) (g a)) :
    CutShort stops (l.mapM f) (l.mapM g) := by
  induction l with
  | nil => exact refl _
  | cons a l ih =>
    rw [List.mapM_cons, List.mapM_cons]
    apply bind (h a List.mem_cons_self)
    intro b
    apply bind (ih fun a' ha' => h a' (List.mem_cons_of_mem _ ha'))
    intro bs
    exact refl _

theorem lift {x y : Written α} (h : Outcome.CutShort stops x y) :
    CutShort stops (Writing.lift x) (Writing.lift y) := by
  intro p
  rcases h with rfl | ⟨e, he, rfl⟩
  · exact .refl _
  · exact .stopped he

end CutShort

end Writing

/-! ## Settings of which one allows less -/

/-- Whether a feature is only expressed by predicates. -/
def Feature.needsRefinements : Feature → Bool
  | ruleRefinement _ => true
  | requiredAny => true
  | invalidValues => true
  | conditional .noRefinements => true
  | _ => false

/-- Whether a feature is only expressed by dropping values. -/
def Feature.needsStrip : Feature → Bool
  | strip => true
  | _ => false

/-- A switch is set as in another run, or it is off here and whatever needs it stops the run. -/
def Gate (stops : Failure → Prop) (needs : Feature → Bool) (here there : Bool) : Prop :=
  here = there ∨ here = false ∧
    ∀ feature path, needs feature = true → stops (.rejected ⟨.unsupported feature, path⟩)

/-- A setting differs from another one only in what it forbids. -/
structure Setting.Narrows (stops : Failure → Prop) (narrow wide : Setting) : Prop where
  rules : narrow.rules = wide.rules
  defaultPresence : narrow.options.defaultPresence = wide.options.defaultPresence
  strictObjects : narrow.options.strictObjects = wide.options.strictObjects
  refinements :
    Gate stops Feature.needsRefinements narrow.options.refinements wide.options.refinements
  strip : Gate stops Feature.needsStrip narrow.options.strip wide.options.strip

section Narrowing
variable {stops : Failure → Prop}

theorem RuleForm.emit_cutShort {here there : Bool} (form : RuleForm) (target : Code) (rule : Rule)
    (kind : Kind) (path : Path) (h : Gate stops Feature.needsRefinements here there) :
    Outcome.CutShort stops (form.emit target rule ⟨kind, path, here⟩)
      (form.emit target rule ⟨kind, path, there⟩) := by
  rcases h with rfl | ⟨rfl, hstops⟩
  · exact .refl _
  · -- Only refinements look at the switch, and they do so first.
    cases form with
    | refinement predicate message arity =>
      exact .stopped (hstops (.ruleRefinement rule.name) path rfl)
    | _ => exact .refl _

namespace Writing

variable {narrow wide : Setting} (h : narrow.Narrows stops wide)
include h

theorem addPredicate_cutShort (target test : Code) (message : String) {feature : Feature}
    (hfeature : feature.needsRefinements = true) (path : Path) :
    Outcome.CutShort stops (addPredicate narrow target test message feature path)
      (addPredicate wide target test message feature path) := by
  unfold addPredicate
  rcases h.refinements with heq | ⟨hoff, hstops⟩
  · rw [heq]
    exact .refl _
  · rw [hoff]
    exact .stopped (hstops feature path hfeature)

theorem applyRules_cutShort (node : Node) (target : Code) :
    Outcome.CutShort stops (applyRules narrow node target) (applyRules wide node target) := by
  have hrule : ∀ target rule path, Outcome.CutShort stops
      (applyRule narrow node.kind target rule path) (applyRule wide node.kind target rule path) := by
    intro target rule path
    unfold applyRule
    rw [h.rules]
    cases wide.rules.get? node.kind rule.name with
    | none => exact .refl _
    | some form => exact form.emit_cutShort target rule node.kind path h.refinements
  apply Outcome.CutShort.foldlM
  intro target pair
  exact hrule target pair.1 _

theorem primitive_cutShort (node : Node) (base : Code) :
    CutShort stops (primitive narrow node base) (primitive wide node base) := by
  have hinvalid : ∀ code, Outcome.CutShort stops (refuseInvalid narrow node code)
      (refuseInvalid wide node code) := by
    intro code
    apply (Outcome.CutShort.refl _).bind
    intro _
    exact addPredicate_cutShort h _ _ _ rfl _
  have hrest : ∀ code, CutShort stops
      (if node.invalids.isEmpty then pure code >>= complete node
        else lift (refuseInvalid narrow node code) >>= complete node)
      (if node.invalids.isEmpty then pure code >>= complete node
        else lift (refuseInvalid wide node code) >>= complete node) := by
    intro code
    split
    · exact .refl _
    · exact (CutShort.lift (hinvalid code)).bind fun _ => .refl _
  apply CutShort.bind (.lift (applyRules_cutShort h node base))
  intro ruled
  dsimp only
  split
  · exact CutShort.bind (.refl _) hrest
  · exact CutShort.bind (.refl _) hrest

theorem applyPresence_cutShort (node : Node) (target : Code) :
    Outcome.CutShort stops (applyPresence narrow node target) (applyPresence wide node target) := by
  unfold applyPresence
  split
  · exact .refl _
  · split
    · exact addPredicate_cutShort h _ _ _ rfl _
    · exact .refl _
  · exact .refl _

theorem applyStrip_cutShort (node : Node) (target : Code) :
    Outcome.CutShort stops (applyStrip narrow node target) (applyStrip wide node target) := by
  unfold applyStrip
  rcases h.strip with heq | ⟨hoff, hstops⟩
  · rw [heq]
    exact .refl _
  · rw [hoff]
    split
    · exact .stopped (hstops .strip _ rfl)
    · exact .refl _

theorem modify_cutShort (node : Node) (target : Code) :
    Outcome.CutShort stops (modify narrow node target) (modify wide node target) := by
  apply (applyPresence_cutShort h node target).bind
  intro present
  apply (Outcome.CutShort.refl _).bind
  intro defaulted
  exact applyStrip_cutShort h node defaulted

/-! ## Writing with the two settings -/

variable {child child' : ChildWriter} (hc : ∀ m, CutShort stops (child m) (child' m))
include hc

theorem field_cutShort (node : Node) :
    CutShort stops (field narrow child node) (field wide child' node) := by
  apply (hc node).bind
  intro code
  rw [h.defaultPresence]
  split
  · exact .refl _
  · split
    · exact .refl _
    · split
      · exact .lift (addPredicate_cutShort h _ _ _ rfl _)
      · exact .refl _

theorem branch_cutShort (base node : Option Node) :
    CutShort stops (branch narrow child base node) (branch wide child' base node) := by
  unfold branch
  split
  · exact .refl _
  · exact field_cutShort h hc _
  · exact field_cutShort h hc _
  · apply CutShort.bind (.refl _)
    intro merged
    exact field_cutShort h hc merged

omit h in
theorem test_cutShort (access : String) (case : Case Node) :
    CutShort stops (test child access case) (test child' access case) := by
  apply (hc case.condition).bind
  intro code
  exact .refl _

theorem selection_cutShort (base : Option Node) (name : String) (guard : Guard Node) :
    CutShort stops (selection narrow child base name guard)
      (selection wide child' base name guard) := by
  apply CutShort.bind (.refl _)
  intro access
  apply (CutShort.mapM fun case _ => test_cutShort hc access case).bind
  intro tests
  apply (CutShort.mapM fun case _ => branch_cutShort h hc base case.branch).bind
  intro branches
  apply (branch_cutShort h hc base guard.otherwise).bind
  intro otherwise
  exact .refl _

theorem guardedField_cutShort (name : String) (node : Node) (first : Guard Node) :
    CutShort stops (guardedField narrow child name node first)
      (guardedField wide child' name node first) := by
  have hrest : CutShort stops
      (node.guards.mapM (selection narrow child (guardBase node) name))
      (node.guards.mapM (selection wide child' (guardBase node) name)) :=
    .mapM fun guard _ => selection_cutShort h hc (guardBase node) name guard
  unfold guardedField
  rcases h.refinements with heq | ⟨hoff, hstops⟩
  · rw [heq]
    dsimp only
    split
    · exact CutShort.bind (.refl _) fun _ => hrest.bind fun _ => .refl _
    · exact hrest.bind fun _ => .refl _
  · rw [hoff]
    exact fun p => .stopped (hstops (.conditional .noRefinements) first.path rfl)

theorem property_cutShort (name : String) (node : Node) :
    CutShort stops (property narrow child name node) (property wide child' name node) := by
  unfold property
  split
  · apply (field_cutShort h hc node).bind
    intro code
    exact .refl _
  · apply (guardedField_cutShort h hc name node _).bind
    intro parts
    exact .refl _

theorem object_cutShort (node : Node) :
    CutShort stops (object narrow child node) (object wide child' node) := by
  have hunknown : applyUnknown narrow node = applyUnknown wide node := by
    funext target
    unfold applyUnknown
    rw [h.strictObjects]
  apply (CutShort.mapM fun key _ => property_cutShort h hc key.1 key.2).bind
  intro properties
  rw [hunknown]
  apply CutShort.bind (.lift (applyRules_cutShort h node _))
  intro code
  exact .refl _

theorem array_cutShort (node : Node) :
    CutShort stops (array narrow child node) (array wide child' node) := by
  apply (CutShort.mapM fun m _ => hc m).bind
  intro items
  exact .lift (applyRules_cutShort h node _)

theorem alternatives_cutShort (node : Node) :
    CutShort stops (alternatives narrow child node) (alternatives wide child' node) := by
  apply (CutShort.mapM fun m _ => hc m).bind
  intro members
  exact .lift (applyRules_cutShort h node _)

theorem body_cutShort (node : Node) :
    CutShort stops (body narrow child node) (body wide child' node) := by
  unfold body
  split
  · exact .refl _
  · split
    · exact (object_cutShort h hc node).bind fun code => .refl _
    · exact (array_cutShort h hc node).bind fun code => .refl _
    · exact (alternatives_cutShort h hc node).bind fun code => .refl _
    · split
      · exact primitive_cutShort h node _
      · exact .refl _

theorem level_cutShort (node : Node) :
    CutShort stops (level narrow child node) (level wide child' node) := by
  unfold level
  split
  · exact .refl _
  · apply (body_cutShort h hc node).bind
    intro code
    apply CutShort.bind (.refl _)
    intro code
    exact .lift (modify_cutShort h node code)

omit hc in
/-- Writing with less allowed is cut short. The levels are the same, or there are fewer of them and
the run stops where they end. -/
theorem write_cutShort {levels levels' : Nat} (node : Node)
    (hlevels : levels = levels' ∧ narrow.options.maxDepth = wide.options.maxDepth ∨
      levels ≤ levels' ∧ ∀ path, stops (.rejected ⟨.tooDeep narrow.options.maxDepth, path⟩)) :
    CutShort stops (write narrow levels node) (write wide levels' node) := by
  induction levels generalizing levels' node with
  | zero =>
    rcases hlevels with ⟨rfl, hdepth⟩ | ⟨-, hstops⟩
    · simp only [write, hdepth]
      exact .refl _
    · exact fun p => .stopped (hstops node.path)
  | succ levels ih =>
    cases levels' with
    | zero => omega
    | succ levels' =>
      apply level_cutShort h
      intro m
      apply ih
      rcases hlevels with ⟨heq, hdepth⟩ | ⟨hle, hstops⟩
      · exact .inl ⟨by omega, hdepth⟩
      · exact .inr ⟨by omega, hstops⟩

end Writing

end Narrowing

end Schemata
