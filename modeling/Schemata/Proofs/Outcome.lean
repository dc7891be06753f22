import Schemata.Failure
/-!
Outcomes of steps that may fail, taken apart.

A composed step succeeds if all its parts do, and fails with the failure of its first part that does.

Component: outcomes, `Checked` and `Written`. Main results:
- `bind_ok` — a composed step succeeds exactly if its parts do, one after the other;
- `toWritten_eq` — checks as steps of writing fail with what they report.
-/

namespace Schemata.Outcome

variable {ε ε' α β : Type}

theorem bind_ok {x : Except ε α} {f : α → Except ε β} {b : β} :
    x >>= f = .ok b ↔ ∃ a, x = .ok a ∧ f a = .ok b := by
  constructor
  · intro h
    cases x with
    | ok a => exact ⟨a, rfl, h⟩
    | error e => cases h
  · rintro ⟨a, rfl, h⟩
    exact h

theorem bind_error {x : Except ε α} {f : α → Except ε β} {e : ε} :
    x >>= f = .error e ↔ x = .error e ∨ ∃ a, x = .ok a ∧ f a = .error e := by
  constructor
  · intro h
    cases x with
    | ok a => exact .inr ⟨a, rfl, h⟩
    | error e' => cases h; exact .inl rfl
  · rintro (rfl | ⟨a, rfl, h⟩)
    · rfl
    · exact h

theorem ok_bind (a : α) (f : α → Except ε β) : (.ok a : Except ε α) >>= f = f a := rfl

theorem error_bind (e : ε) (f : α → Except ε β) : (.error e : Except ε α) >>= f = .error e := rfl

theorem malformed_bind (m : Malformation) (path : Path) (f : α → Checked β) :
    (malformed m path : Checked α) >>= f = malformed m path := rfl

theorem pure_ok {a b : α} : (pure a : Except ε α) = .ok b ↔ a = b :=
  ⟨fun h => by cases h; rfl, fun h => h ▸ rfl⟩

/-- Every result of a sequence of steps is the result of one of them. -/
theorem mapM_ok_mem {f : α → Except ε β} {l : List α} {bs : List β} (h : l.mapM f = .ok bs) :
    ∀ b ∈ bs, ∃ a ∈ l, f a = .ok b := by
  induction l generalizing bs with
  | nil => cases h; simp
  | cons a l ih =>
    simp only [List.mapM_cons, bind_ok, pure_ok] at h
    obtain ⟨b, hb, bs', hbs, rfl⟩ := h
    intro b' hb'
    rcases List.mem_cons.1 hb' with rfl | hb'
    · exact ⟨a, by simp, hb⟩
    · obtain ⟨a', ha', hf⟩ := ih hbs b' hb'
      exact ⟨a', by simp [ha'], hf⟩

/-- A sequence of steps that succeeds has no step that fails. -/
theorem mapM_ok_all {f : α → Except ε β} {l : List α} {bs : List β} (h : l.mapM f = .ok bs) :
    ∀ a ∈ l, ∃ b, f a = .ok b := by
  induction l generalizing bs with
  | nil => simp
  | cons a l ih =>
    simp only [List.mapM_cons, bind_ok, pure_ok] at h
    obtain ⟨b, hb, bs', hbs, -⟩ := h
    intro a' ha'
    rcases List.mem_cons.1 ha' with rfl | ha'
    · exact ⟨b, hb⟩
    · exact ih hbs a' ha'

/-- The results of a sequence of steps stand in the order of the steps. -/
theorem mapM_ok_get {f : α → Except ε β} {l : List α} {bs : List β} (h : l.mapM f = .ok bs)
    (i : Nat) : (l[i]? = none ∧ bs[i]? = none) ∨
      ∃ a b, l[i]? = some a ∧ bs[i]? = some b ∧ f a = .ok b := by
  induction l generalizing bs i with
  | nil => cases h; simp
  | cons a l ih =>
    simp only [List.mapM_cons, bind_ok, pure_ok] at h
    obtain ⟨b, hb, bs', hbs, rfl⟩ := h
    cases i with
    | zero => exact .inr ⟨a, b, rfl, rfl, hb⟩
    | succ i => exact ih hbs i

theorem mapM_error {f : α → Except ε β} {l : List α} {e : ε} (h : l.mapM f = .error e) :
    ∃ a ∈ l, f a = .error e := by
  induction l with
  | nil => cases h
  | cons a l ih =>
    rw [List.mapM_cons] at h
    rcases bind_error.1 h with h | ⟨b, -, h⟩
    · exact ⟨a, by simp, h⟩
    · rcases bind_error.1 h with h | ⟨bs, -, h⟩
      · obtain ⟨a', ha', hf⟩ := ih h
        exact ⟨a', by simp [ha'], hf⟩
      · cases h

/-! ## Failures under another name -/

/-- What every step keeps holds at the end. -/
theorem foldlM_ok {f : β → α → Except ε β} {P : β → Prop}
    (hstep : ∀ b a b', P b → f b a = .ok b' → P b') {l : List α} {b b' : β} (hb : P b)
    (h : l.foldlM f b = .ok b') : P b' := by
  induction l generalizing b with
  | nil =>
    cases h
    exact hb
  | cons a l ih =>
    rw [List.foldlM_cons] at h
    obtain ⟨c, hc, h⟩ := bind_ok.1 h
    exact ih (hstep b a c hb hc) h

/-- If all steps are taken, each of them is. -/
theorem foldlM_ok_all {f : β → α → Except ε β} {l : List α} {b b' : β}
    (h : l.foldlM f b = .ok b') : ∀ a ∈ l, ∃ c c', f c a = .ok c' := by
  induction l generalizing b with
  | nil => simp
  | cons a l ih =>
    rw [List.foldlM_cons] at h
    obtain ⟨c, hc, h⟩ := bind_ok.1 h
    exact List.forall_mem_cons.2 ⟨⟨b, c, hc⟩, ih h⟩

theorem mapError_bind (g : ε → ε') (x : Except ε α) (f : α → Except ε β) :
    (x >>= f).mapError g = x.mapError g >>= fun a => (f a).mapError g := by
  cases x <;> rfl

theorem mapError_mapM (g : ε → ε') (f : α → Except ε β) (l : List α) :
    (l.mapM f).mapError g = l.mapM fun a => (f a).mapError g := by
  induction l with
  | nil => rfl
  | cons a l ih =>
    simp only [List.mapM_cons, mapError_bind, ih]
    rfl

theorem map_error {f : α → β} {x : Except ε α} {e : ε} : x.map f = .error e ↔ x = .error e := by
  cases x with
  | ok a => simp [Except.map]
  | error e' => simp [Except.map]

theorem mapError_ok {g : ε → ε'} {x : Except ε α} {a : α} : x.mapError g = .ok a ↔ x = .ok a := by
  cases x with
  | ok b =>
    constructor
    · rintro ⟨⟩; rfl
    · rintro ⟨⟩; rfl
  | error e =>
    constructor
    · rintro ⟨⟩
    · rintro ⟨⟩

theorem mapError_error {g : ε → ε'} {x : Except ε α} {e' : ε'} :
    x.mapError g = .error e' ↔ ∃ e, x = .error e ∧ g e = e' := by
  cases x with
  | ok b =>
    constructor
    · rintro ⟨⟩
    · rintro ⟨_, ⟨⟩, _⟩
  | error e =>
    constructor
    · exact fun h => ⟨e, rfl, Except.error.inj h⟩
    · rintro ⟨_, ⟨⟩, rfl⟩; rfl

/-- Checks as steps of writing fail with what they report. -/
theorem toWritten_eq (c : Checked α) : c.toWritten = c.mapError Failure.ofError := by
  cases c <;> rfl

theorem toWritten_ok {c : Checked α} {a : α} : c.toWritten = .ok a ↔ c = .ok a := by
  rw [toWritten_eq, mapError_ok]

theorem toWritten_error {c : Checked α} {failure : Failure} :
    c.toWritten = .error failure ↔ ∃ e, c = .error e ∧ Failure.ofError e = failure := by
  rw [toWritten_eq, mapError_error]

end Schemata.Outcome
