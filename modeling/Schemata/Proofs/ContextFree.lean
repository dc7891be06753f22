import Schemata.Proofs.TwoRuns
import Schemata.Proofs.Reached
/-!
Code does not depend on where it is written.

Two runs are compared: of nodes that differ in their paths only, with any levels left, any
declarations made and any notes taken before. If both runs succeed they give the same code. Paths
show up in errors and notes, and the declarations decide whether a run fails, but neither gets into
the code. The body of a node does not depend on its presence, default and strip either, so that a
name can be declared again for a node of the same shape.

Component: the writer of nodes, `Writing.write`. Main results:
- `body_agree` — nodes of the same shape have the same body;
- `write_agree` — nodes that are equal without their paths have the same code;
- `write_contextFree` — both together, and a node can be declared again under its name.
-/

namespace Schemata

/-- Declarations that are added do not change what a name stands for. -/
theorem Declarations.find?_of_prefix {d d' : Declarations} {name : String} {first : Declaration}
    (h : d.entries <+: d'.entries) (hfirst : d.find? name = some first) :
    d'.find? name = some first := by
  obtain ⟨added, hadded⟩ := h
  rw [find?] at hfirst
  rw [find?, ← hadded, List.find?_append, hfirst, Option.some_or]

namespace Writing

/-! ## Two runs -/

/-- Two steps give the same value, from whatever progress, if both succeed. -/
def Agree {α : Type} (x y : Write α) : Prop :=
  ∀ p a q p' a' q', x p = .ok (a, q) → y p' = .ok (a', q') → a = a'

/-- Only the values of two runs that both succeed are compared. -/
def Comparison.ofValues : Comparison where
  progress _ _ := True
  failures _ _ := True
  apart := True
  refl _ := trivial
  rejected _ _ _ := trivial
  mixed _ _ _ := trivial
  note _ _ _ _ := trivial
  declare := by
    intro p p' _ name body path path'
    cases h : Writing.declare name body path p with
    | error failure => cases Writing.declare name body path' p' <;> exact trivial
    | ok r =>
      cases h' : Writing.declare name body path' p' with
      | error failure => exact trivial
      | ok r' => exact ⟨(declare_ok h).1.trans (declare_ok h').1.symm, trivial⟩

theorem agree_iff {α : Type} {x y : Write α} : Agree x y ↔ Comparison.ofValues.Relates x y := by
  constructor
  · intro h p p' _
    cases hx : x p with
    | error failure => cases y p' <;> exact trivial
    | ok r =>
      cases hy : y p' with
      | error failure => exact trivial
      | ok r' => exact ⟨h p r.1 r.2 p' r'.1 r'.2 hx hy, trivial⟩
  · intro h p a q p' a' q' hx hy
    have hends := h p p' trivial
    rw [hx, hy] at hends
    exact hends.1

/-- Nodes of the same shape have the same body. -/
theorem body_agree {setting : Setting} {c₁ c₂ : ChildWriter}
    (hc : ∀ m₁ m₂ : Node, m₁.withoutPaths = m₂.withoutPaths → Agree (c₁ m₁) (c₂ m₂)) {n₁ n₂ : Node}
    (hn : n₁.Alike n₂) : Agree (body setting c₁ n₁) (body setting c₂ n₂) :=
  agree_iff.2 (body_related (fun m₁ m₂ hm => agree_iff.1 (hc m₁ m₂ hm)) hn)

/-- Nodes that are equal without their paths have the same code. The levels left only decide whether a
run fails, so the two numbers need not be equal. -/
theorem write_agree (setting : Setting) (l₁ l₂ : Nat) {n₁ n₂ : Node}
    (h : n₁.withoutPaths = n₂.withoutPaths) :
    Agree (write setting l₁ n₁) (write setting l₂ n₂) :=
  agree_iff.2 (write_related setting (.inr trivial) h)

/-! ## Declaring a name again -/

/-- What a name is declared as reads like the code that was declared under it. -/
theorem find?_of_declare {name : String} {body code : Code} {path : Path} {p q : Progress}
    (h : declare name body path p = .ok (code, q)) :
    ∃ first, q.declared.find? name = some first ∧ first.body.text = body.text := by
  obtain ⟨-, ⟨rfl, hfirst⟩ | ⟨hnone, rfl⟩⟩ := declare_ok h
  · exact hfirst
  · refine ⟨⟨name, body, path⟩, ?_, rfl⟩
    rw [Declarations.find?] at hnone ⊢
    rw [List.find?_append, hnone]
    simp

/-- A node is declared again without a conflict, once its body was declared under its name. -/
theorem named_again {n₁ n₂ : Node} (hname : n₁.name = n₂.name) {b₁ b₂ : Code}
    (hbody : b₁.text = b₂.text) {q₁ r₁ q₂ : Progress} {a₁ : Code}
    (h : named n₁ b₁ q₁ = .ok (a₁, r₁)) (hbefore : r₁.declared.entries <+: q₂.declared.entries) :
    ∃ a₂, named n₂ b₂ q₂ = .ok (a₂, q₂) := by
  have hdeclared : n₁.declaredName? = n₂.declaredName? := by
    rw [Node.declaredName?, Node.declaredName?, hname]
  cases hn₂ : n₂.declaredName? with
  | none => exact ⟨b₂, by simp only [named, hn₂]; rfl⟩
  | some name =>
    simp only [named, hdeclared, hn₂] at h
    -- The first declaration is still there, and it reads like the second one.
    obtain ⟨first, hfirst, htext⟩ := find?_of_declare h
    refine ⟨.name name, ?_⟩
    simp only [named, hn₂, declare, Declarations.declare, Declarations.find?_of_prefix hbefore hfirst]
    rw [if_pos (htext.trans hbody)]

/-- Writing is free of context. The code of a node depends on the options, on the rules and on the node
without its paths. The body of a node depends on its shape only, and nodes of the same name and shape
can be declared one after the other. -/
theorem write_contextFree (setting : Setting) (n₁ n₂ : Node) :
    (n₁.withoutPaths = n₂.withoutPaths →
      ∀ l₁ l₂ p₁ p₂ a₁ a₂ q₁ q₂, write setting l₁ n₁ p₁ = .ok (a₁, q₁) →
        write setting l₂ n₂ p₂ = .ok (a₂, q₂) →
        a₁.text = a₂.text ∧ a₁.precedence = a₂.precedence) ∧
    (n₁.shape = n₂.shape →
      ∀ l₁ l₂ p₁ p₂ b₁ b₂ q₁ q₂, body setting (write setting l₁) n₁ p₁ = .ok (b₁, q₁) →
        body setting (write setting l₂) n₂ p₂ = .ok (b₂, q₂) →
        b₁.text = b₂.text ∧
          ∀ a₁ r₁, named n₁ b₁ q₁ = .ok (a₁, r₁) → r₁.declared.entries <+: q₂.declared.entries →
            ∃ a₂, named n₂ b₂ q₂ = .ok (a₂, q₂)) := by
  constructor
  · intro h l₁ l₂ p₁ p₂ a₁ a₂ q₁ q₂ h₁ h₂
    obtain rfl := write_agree setting l₁ l₂ h p₁ a₁ q₁ p₂ a₂ q₂ h₁ h₂
    exact ⟨rfl, rfl⟩
  · intro h l₁ l₂ p₁ p₂ b₁ b₂ q₁ q₂ h₁ h₂
    have hn := Node.alike_of_shape h
    obtain rfl := body_agree (fun _ _ hm => write_agree setting l₁ l₂ hm) hn p₁ b₁ q₁ p₂ b₂ q₂ h₁ h₂
    exact ⟨rfl, fun a₁ r₁ hnamed hbefore => named_again hn.name rfl hnamed hbefore⟩

/-- A named string, written at two paths with different levels left, and declared again where it is
optional. -/
theorem write_contextFree_named :
    let n₁ : Node := { kind := .string, name := some "Name" }
    let n₂ : Node := { n₁ with path := (Path.root.key "keys").key "a" }
    let n₃ : Node := { n₂ with flags := { presence := some .optional } }
    let setting : Setting := ⟨{}, Rulebook.builtin⟩
    let string : Code := .call "z.string" []
    let declared : Progress := { declared := ⟨[⟨"Name", string, .root⟩]⟩ }
    write setting 1 n₁ {} = .ok (.name "Name", declared) ∧
      write setting 5 n₂ declared = .ok (.name "Name", declared) ∧
      ((Code.name "Name").text = (Code.name "Name").text ∧
        (Code.name "Name").precedence = (Code.name "Name").precedence) ∧
      body setting (write setting 3) n₃ declared = .ok (string, declared) ∧
      ∃ a₃, named n₃ string declared = .ok (a₃, declared) := by
  intro n₁ n₂ n₃ setting string declared
  have h₁ : write setting 1 n₁ {} = .ok (.name "Name", declared) := rfl
  have h₂ : write setting 5 n₂ declared = .ok (.name "Name", declared) := rfl
  have hbody₁ : body setting (write setting 0) n₁ {} = .ok (string, {}) := rfl
  have hbody₃ : body setting (write setting 3) n₃ declared = .ok (string, declared) := rfl
  refine ⟨h₁, h₂, (write_contextFree setting n₁ n₂).1 rfl 1 5 _ _ _ _ _ _ h₁ h₂, hbody₃, ?_⟩
  have hshape := (write_contextFree setting n₁ n₃).2 rfl 0 3 _ _ _ _ _ _ hbody₁ hbody₃
  exact hshape.2 (.name "Name") declared rfl (List.prefix_refl _)

end Writing

end Schemata
