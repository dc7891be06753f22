import Schemata.Proofs.Outcome
import Schemata.Writing.Basic
/-!
Contracts of the steps of writing.

Most facts about writing have one shape: whatever the progress at the start, the progress at the end
is related to it, the value is of a certain sort, and only certain failures end the step. A contract
fixes the relation and the failures. `C.Holds good x` says that the step `x` keeps the contract `C`
and that its values are `good`. There is one lemma per way of putting steps together, so that a fact
about a function of the writer follows the function line by line.

Component: the steps of writing, `Write`, and how they are put together. Main results:
- `Contract.holds_bind` — a contract passes through a composed step;
- `mapM_ok` — a sequence of steps that succeeds has taken every step with success.
-/

namespace Schemata

/-- Whether a cause only concerns the place it is reported at: neither the depth of the description
nor a rule that the table does not have. -/
def Cause.isRefusal : Cause → Bool
  | malformed _ => true
  | conflict _ _ => true
  | unsupportedRule _ _ => false
  | unsupported _ => true
  | tooDeep _ => false

namespace Writing

/-! ## Runs of composed steps -/

@[simp] theorem pure_run {α : Type} (a : α) (p : Progress) :
    (pure a : Write α) p = .ok (a, p) := rfl

theorem bind_run {α β : Type} (x : Write α) (f : α → Write β) (p : Progress) :
    (x >>= f) p = x p >>= fun r => f r.1 r.2 := rfl

/-- A run that succeeds passes through a state between its two parts. -/
theorem bind_ok {α β : Type} {x : Write α} {f : α → Write β} {p r : Progress} {b : β} :
    (x >>= f) p = .ok (b, r) ↔ ∃ a q, x p = .ok (a, q) ∧ f a q = .ok (b, r) := by
  rw [bind_run, Outcome.bind_ok, Prod.exists]

theorem bind_error {α β : Type} {x : Write α} {f : α → Write β} {p : Progress}
    {failure : Failure} :
    (x >>= f) p = .error failure ↔
      x p = .error failure ∨ ∃ a q, x p = .ok (a, q) ∧ f a q = .error failure := by
  rw [bind_run, Outcome.bind_error, Prod.exists]

/-- A sequence of steps that succeeds has taken every step with success. -/
theorem mapM_ok {α β : Type} {f : α → Write β} {l : List α} {p q : Progress} {bs : List β}
    (h : l.mapM f p = .ok (bs, q)) : ∀ a ∈ l, ∃ p' b q', f a p' = .ok (b, q') := by
  induction l generalizing p q bs with
  | nil => simp
  | cons a l ih =>
    rw [List.mapM_cons] at h
    obtain ⟨b, p₁, hb, h⟩ := bind_ok.1 h
    obtain ⟨bs', q₁, hbs, -⟩ := bind_ok.1 h
    intro a' ha'
    rcases List.mem_cons.1 ha' with rfl | ha'
    · exact ⟨p, b, p₁, hb⟩
    · exact ih hbs a' ha'

/-- A sequence of steps gives one value per step. -/
theorem mapM_length {α β : Type} {f : α → Write β} {l : List α} {p q : Progress} {bs : List β}
    (h : l.mapM f p = .ok (bs, q)) : bs.length = l.length := by
  induction l generalizing p q bs with
  | nil => cases h; rfl
  | cons a l ih =>
    rw [List.mapM_cons] at h
    obtain ⟨b, p₁, -, h⟩ := bind_ok.1 h
    obtain ⟨bs', q₁, hbs, h⟩ := bind_ok.1 h
    cases h
    rw [List.length_cons, List.length_cons, ih hbs]

theorem lift_ok {α : Type} {w : Written α} {p q : Progress} {a : α} :
    lift w p = .ok (a, q) ↔ w = .ok a ∧ p = q := by
  cases w <;> simp [lift]

theorem lift_error {α : Type} {w : Written α} {p : Progress} {failure : Failure} :
    lift w p = .error failure ↔ w = .error failure := by
  cases w <;> simp [lift]

/-! ## Lifting respects the composition of steps -/

@[simp] theorem lift_pure {α : Type} (a : α) : lift (pure a : Written α) = pure a := rfl

@[simp] theorem lift_bind {α β : Type} (w : Written α) (f : α → Written β) :
    lift (w >>= f) = lift w >>= fun a => lift (f a) := by
  funext p
  rw [bind_run]
  cases w with
  | ok a => rfl
  | error failure => rfl

theorem lift_mapM {α β : Type} (f : α → Written β) (l : List α) :
    lift (l.mapM f) = l.mapM fun a => lift (f a) := by
  induction l with
  | nil => rfl
  | cons a l ih => simp only [List.mapM_cons, lift_bind, ih, lift_pure]

theorem lift_forM {α : Type} (f : α → Written Unit) (l : List α) :
    lift (l.forM f) = l.forM fun a => lift (f a) := by
  induction l with
  | nil => rfl
  | cons a l ih =>
    show lift (f a >>= fun _ => l.forM f) = _
    rw [lift_bind, ih]
    rfl

/-! ## Contracts -/

/-- How steps may change the progress, and how they may fail. Doing nothing, doing one thing after
the other, making a note and refusing a description are always within a contract. -/
structure Contract where
  /-- How the progress may differ after a step. -/
  change : Progress → Progress → Prop
  /-- Which failures may end a step. -/
  failure : Failure → Prop
  refl : ∀ p, change p p
  trans : ∀ {p q r}, change p q → change q r → change p r
  note : ∀ p diagnostic, change p { p with notes := p.notes ++ [diagnostic] }
  refusal : ∀ cause path, cause.isRefusal → failure (.rejected ⟨cause, path⟩)

namespace Contract

/-- Every run of the step keeps the contract, and every value it gives is good. -/
def Holds (C : Contract) {α : Type} (good : α → Prop) (x : Write α) : Prop :=
  (∀ p a q, x p = .ok (a, q) → good a ∧ C.change p q) ∧
    ∀ p failure, x p = .error failure → C.failure failure

variable {C : Contract} {α β : Type}

theorem holds_pure {good : α → Prop} {a : α} (h : good a) : C.Holds good (pure a) := by
  refine ⟨fun p b q hb => ?_, fun p failure hf => ?_⟩
  · rw [pure_run] at hb
    cases hb
    exact ⟨h, C.refl p⟩
  · rw [pure_run] at hf
    cases hf

theorem holds_bind {mid : α → Prop} {good : β → Prop} {x : Write α} {f : α → Write β}
    (hx : C.Holds mid x) (hf : ∀ a, mid a → C.Holds good (f a)) : C.Holds good (x >>= f) := by
  refine ⟨fun p b r hb => ?_, fun p failure he => ?_⟩
  · -- The progress between the two parts carries the change over.
    obtain ⟨a, q, ha, hb⟩ := bind_ok.1 hb
    obtain ⟨hmid, hpq⟩ := hx.1 p a q ha
    obtain ⟨hgood, hqr⟩ := (hf a hmid).1 q b r hb
    exact ⟨hgood, C.trans hpq hqr⟩
  · rcases bind_error.1 he with he | ⟨a, q, ha, he⟩
    · exact hx.2 p failure he
    · exact (hf a (hx.1 p a q ha).1).2 q failure he

theorem holds_lift {good : α → Prop} {w : Written α} (hok : ∀ a, w = .ok a → good a)
    (herr : ∀ failure, w = .error failure → C.failure failure) : C.Holds good (lift w) := by
  refine ⟨fun p a q h => ?_, fun p failure h => herr failure (lift_error.1 h)⟩
  obtain ⟨ha, rfl⟩ := lift_ok.1 h
  exact ⟨hok a ha, C.refl p⟩

theorem holds_reject {good : α → Prop} {cause : Cause} {path : Path}
    (h : cause.isRefusal = true) : C.Holds good (reject cause path : Write α) := by
  refine ⟨fun p a q h => ?_, fun p failure hf => ?_⟩
  · cases h
  · cases hf
    exact C.refusal cause path h

theorem holds_reject_bind {good : β → Prop} {cause : Cause} {path : Path} {f : α → Write β}
    (h : cause.isRefusal = true) : C.Holds good (reject cause path >>= f) :=
  holds_reject h

theorem holds_note {notice : Notice} {path : Path} :
    C.Holds (fun _ => True) (Writing.note notice path) := by
  refine ⟨fun p a q hn => ?_, fun p failure hf => by cases hf⟩
  cases hn
  exact ⟨trivial, C.note p ⟨notice, path⟩⟩

theorem Holds.mono {good good' : α → Prop} {x : Write α} (hx : C.Holds good x)
    (h : ∀ a, good a → good' a) : C.Holds good' x :=
  ⟨fun p a q ha => ⟨h a (hx.1 p a q ha).1, (hx.1 p a q ha).2⟩, hx.2⟩

theorem holds_ite {good : α → Prop} {c : Prop} [Decidable c] {x y : Write α}
    (hx : c → C.Holds good x) (hy : ¬c → C.Holds good y) :
    C.Holds good (if c then x else y) := by
  by_cases h : c
  · rw [if_pos h]; exact hx h
  · rw [if_neg h]; exact hy h

theorem holds_mapM {good : β → Prop} {f : α → Write β} {l : List α}
    (h : ∀ a ∈ l, C.Holds good (f a)) : C.Holds (fun bs => ∀ b ∈ bs, good b) (l.mapM f) := by
  induction l with
  | nil => exact holds_pure (by simp)
  | cons a l ih =>
    rw [List.mapM_cons]
    refine holds_bind (h a (by simp)) fun b hb => ?_
    refine holds_bind (ih fun a' ha' => h a' (by simp [ha'])) fun bs hbs => ?_
    refine holds_pure ?_
    intro b' hb'
    rcases List.mem_cons.1 hb' with rfl | hb'
    · exact hb
    · exact hbs b' hb'

theorem holds_mapM_length {good : β → Prop} {f : α → Write β} {l : List α}
    (h : ∀ a ∈ l, C.Holds good (f a)) :
    C.Holds (fun bs => (∀ b ∈ bs, good b) ∧ bs.length = l.length) (l.mapM f) := by
  refine ⟨fun p bs q hrun => ?_, (holds_mapM h).2⟩
  obtain ⟨hgood, hchange⟩ := (holds_mapM h).1 p bs q hrun
  exact ⟨⟨hgood, mapM_length hrun⟩, hchange⟩

theorem holds_forM {f : α → Write Unit} {l : List α}
    (h : ∀ a ∈ l, C.Holds (fun _ => True) (f a)) : C.Holds (fun _ => True) (l.forM f) := by
  induction l with
  | nil => exact holds_pure trivial
  | cons a l ih =>
    show C.Holds (fun _ => True) (f a >>= fun _ => l.forM f)
    exact holds_bind (h a (by simp)) fun _ _ => ih fun a' ha' => h a' (by simp [ha'])

end Contract

end Writing

end Schemata
