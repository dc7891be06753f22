import Schemata.Proofs.Reached
/-!
What code refers to.

A reference is a name inside a piece of code. The only names in the code of a description are those of
the nodes that writing it has reached, and every such node that has a name is declared by the time the
code is there.

Component: the names in the code of a description. Main results:
- `references_closed` — what is said of all names is inherited from the parts of code;
- `level_names` — a node with a name is declared once it is written.
-/

namespace Schemata

namespace Code

mutual
/-- The names that a piece of code refers to. -/
def references : Code → List String
  | raw _ _ => []
  | name n => [n]
  | literal _ => []
  | call _ args => listReferences args
  | method target _ args => references target ++ listReferences args
  | array items => listReferences items
  | object properties => namedReferences properties
  | record fields => namedReferences fields
  | exclusion _ => []
  | filled _ _ => []
  | success _ test => references test
  | choice cases otherwise => caseReferences cases ++ references otherwise
  | check _ schema => references schema
  | checks statements => listReferences statements
def listReferences : List Code → List String
  | [] => []
  | code :: rest => references code ++ listReferences rest
def namedReferences : List (String × Code) → List String
  | [] => []
  | (_, code) :: rest => references code ++ namedReferences rest
def caseReferences : List (Code × Code) → List String
  | [] => []
  | (condition, branch) :: rest =>
    references condition ++ references branch ++ caseReferences rest
end

section
variable {S : String → Prop}

theorem listReferences_all {codes : List Code} (h : ∀ c ∈ codes, ∀ r ∈ c.references, S r) :
    ∀ r ∈ listReferences codes, S r := by
  induction codes with
  | nil => simp [listReferences]
  | cons code rest ih =>
    intro r hr
    rcases List.mem_append.1 hr with hr | hr
    · exact h code (by simp) r hr
    · exact ih (fun c hc => h c (by simp [hc])) r hr

theorem namedReferences_all {properties : List (String × Code)}
    (h : ∀ p ∈ properties, ∀ r ∈ p.2.references, S r) : ∀ r ∈ namedReferences properties, S r := by
  induction properties with
  | nil => simp [namedReferences]
  | cons p rest ih =>
    intro r hr
    rcases List.mem_append.1 hr with hr | hr
    · exact h p (by simp) r hr
    · exact ih (fun p hp => h p (by simp [hp])) r hr

theorem caseReferences_all {cases : List (Code × Code)}
    (h : ∀ c ∈ cases, (∀ r ∈ c.1.references, S r) ∧ ∀ r ∈ c.2.references, S r) :
    ∀ r ∈ caseReferences cases, S r := by
  induction cases with
  | nil => simp [caseReferences]
  | cons c rest ih =>
    intro r hr
    rcases List.mem_append.1 hr with hr | hr
    · rcases List.mem_append.1 hr with hr | hr
      · exact (h c (by simp)).1 r hr
      · exact (h c (by simp)).2 r hr
    · exact ih (fun c hc => h c (by simp [hc])) r hr

end

/-- What is said of all names in a piece of code is inherited from its parts. -/
theorem references_closed (S : String → Prop) : Closed fun code => ∀ r ∈ code.references, S r where
  raw := by simp [references]
  literal := by simp [references]
  exclusion := by simp [references]
  filled := by simp [references]
  call := listReferences_all
  method ht ha := by
    intro r hr
    rcases List.mem_append.1 hr with hr | hr
    · exact ht r hr
    · exact listReferences_all ha r hr
  array := listReferences_all
  object := namedReferences_all
  record := namedReferences_all
  success ht := ht
  choice hcases hotherwise := by
    intro r hr
    rcases List.mem_append.1 hr with hr | hr
    · exact caseReferences_all hcases r hr
    · exact hotherwise r hr
  check hs := hs
  checks := listReferences_all

end Code

namespace Writing

/-- Writing a node produces a reference to a name: the node, or a node that is reached from it, is
declared under that name. -/
def Refers (levels : Nat) (root : Node) (name : String) : Prop :=
  ∃ l n, Reaches levels root l n ∧ n.isForbidden = false ∧ n.declaredName? = some name

/-- Writing the body of a node produces a reference to a name. -/
def BodyRefers (levels : Nat) (n : Node) (name : String) : Prop :=
  ∃ m ∈ children n, Refers levels m name

theorem Reaches.of_child {levels l : Nat} {n m k : Node} (hm : m ∈ children n)
    (h : Reaches levels m l k) : Reaches (levels + 1) n l k := by
  induction h with
  | root => exact .step .root hm
  | step _ hk ih => exact .step ih hk

theorem BodyRefers.refers {levels : Nat} {n : Node} {name : String} (h : BodyRefers levels n name) :
    Refers (levels + 1) n name := by
  obtain ⟨m, hm, l, k, hreach, hk⟩ := h
  exact ⟨l, k, hreach.of_child hm, hk⟩

/-! ## All references are produced -/

variable {setting : Setting}

theorem body_refers {levels : Nat} {n : Node} (hf : n.isForbidden = false)
    (hc : ∀ m, growth.Holds (fun code => ∀ r ∈ code.references, Refers levels m r)
      (write setting levels m)) :
    growth.Holds (fun code => ∀ r ∈ code.references, BodyRefers levels n r)
      (body setting (write setting levels) n) := by
  refine body_holds (Code.references_closed _) hf (growth_allows setting n) fun m hm => ?_
  exact (hc m).mono fun code hcode r hr => ⟨m, hm, hcode r hr⟩

theorem named_refers {S : String → Prop} {n : Node} {code : Code}
    (hcode : ∀ r ∈ code.references, S r) (hname : ∀ name, n.declaredName? = some name → S name) :
    growth.Holds (fun code => ∀ r ∈ code.references, S r) (named n code) := by
  refine ⟨fun p a q h => ⟨?_, ((named_growth n code).1 p a q h).2⟩, fun _ _ _ => trivial⟩
  cases hdeclared : n.declaredName? with
  | some name =>
    simp only [named, hdeclared] at h
    obtain ⟨rfl, -⟩ := declare_ok h
    simpa [Code.references] using hname name hdeclared
  | none =>
    simp only [named, hdeclared] at h
    cases h
    exact hcode

theorem level_refers {levels : Nat} (n : Node)
    (hc : ∀ m, growth.Holds (fun code => ∀ r ∈ code.references, Refers levels m r)
      (write setting levels m)) :
    growth.Holds (fun code => ∀ r ∈ code.references, Refers (levels + 1) n r)
      (level setting (write setting levels) n) := by
  have hclosed := Code.references_closed (Refers (levels + 1) n)
  unfold level
  split
  · exact Contract.holds_pure hclosed.composed.absent
  · rename_i hf
    replace hf : n.isForbidden = false := by simpa using hf
    refine Contract.holds_bind (body_refers hf hc) fun code hcode => ?_
    -- A name takes the place of the whole body, and modifiers add no names.
    refine Contract.holds_bind (named_refers (fun r hr => (hcode r hr).refers) ?_) ?_
    · exact fun name hname => ⟨levels + 1, n, .root, hf, hname⟩
    · exact fun code hcode => modify_holds hclosed.composed (brings_of_closed hclosed setting n)
        (growth_allows setting n) hcode

theorem write_refers (setting : Setting) (levels : Nat) (n : Node) :
    growth.Holds (fun code => ∀ r ∈ code.references, Refers levels n r) (write setting levels n) := by
  induction levels generalizing n with
  | zero => exact write_zero_holds trivial
  | succ levels ih => exact level_refers n ih

/-! ## All produced references are declared -/

theorem Before.names_subset {p q : Progress} (h : Before p q) : ∀ name ∈ p.declared.names,
    name ∈ q.declared.names := by
  intro name hname
  obtain ⟨entry, hentry, rfl⟩ := List.mem_map.1 hname
  exact List.mem_map_of_mem (h.1.subset hentry)

theorem declare_names {name : String} {code a : Code} {path : Path} {p q : Progress}
    (h : declare name code path p = .ok (a, q)) : name ∈ q.declared.names := by
  obtain ⟨-, ⟨rfl, first, hfirst, -⟩ | ⟨-, rfl⟩⟩ := declare_ok h
  · have hname : first.name = name := by simpa using List.find?_some hfirst
    rw [← hname]
    exact List.mem_map_of_mem (List.mem_of_find?_eq_some hfirst)
  · simp [Declarations.names]

/-- A node with a name is declared once it is written. -/
theorem level_names {child : ChildWriter} {n : Node} {p q : Progress} {a : Code} {name : String}
    (h : level setting child n p = .ok (a, q)) (hf : n.isForbidden = false)
    (hname : n.declaredName? = some name) : name ∈ q.declared.names := by
  simp only [level, hf, Bool.false_eq_true, if_false] at h
  obtain ⟨code, q', -, h⟩ := bind_ok.1 h
  obtain ⟨code', q'', hdeclare, h⟩ := bind_ok.1 h
  obtain ⟨-, rfl⟩ := lift_ok.1 h
  simp only [named, hname] at hdeclare
  exact declare_names hdeclare

theorem Refers.declared {levels : Nat} {root : Node} {p q : Progress} {a : Code} {name : String}
    (hrefers : Refers levels root name) (h : write setting levels root p = .ok (a, q)) :
    name ∈ q.declared.names := by
  obtain ⟨l, n, hreach, hf, hname⟩ := hrefers
  obtain ⟨p', b, q', -, hb, hq⟩ := hreach.ran h
  -- With no levels left the node would not have been written.
  cases l with
  | zero => cases hb
  | succ l => exact hq.names_subset name (level_names hb hf hname)

theorem BodyRefers.declared {levels : Nat} {n : Node} {p q : Progress} {a : Code} {name : String}
    (hrefers : BodyRefers levels n name) (hf : n.isForbidden = false)
    (h : body setting (write setting levels) n p = .ok (a, q)) : name ∈ q.declared.names := by
  obtain ⟨m, hm, hrefers⟩ := hrefers
  have hcovers := body_covers (write_growth setting levels) hf p a q h
  obtain ⟨p', b, q', -, hb, hq⟩ := hcovers.2 m hm
  exact hq.names_subset name (hrefers.declared hb)

end Writing

end Schemata
