import Schemata.Compiler
import Schemata.Proofs.Cutting
import Schemata.Proofs.Slots
/-!
Missing branches of alternatives that have nothing but conditional members.

Such alternatives have no schema of their own to fall back to, so that a missing branch stands for the
absence of a value. Every conditional is checked by a statement of its own, and all of them have to
pass. A conditional that comes to a missing branch thus rules out every value, whatever branch the
other conditionals come to.

Component: the writer of conditional properties, `Writing.property`. Main results:
- `Choice.Writes.selected` — a statement selects what the branch of its conditional becomes;
- `neverVetoes_iff` — when a missing branch rules out a branch of another conditional;
- `property_missing_branches` — both for alternatives that have nothing but conditional members.
-/

namespace Schemata

namespace Guard

/-- The branches that a conditional selects one of; some may be missing. -/
def options (guard : Guard Node) : List (Option Node) :=
  guard.cases.map Case.branch ++ [guard.otherwise]

/-- The branch that a conditional selects. -/
def selected (guard : Guard Node) (truth : Nat → Bool) : Option Node :=
  pick truth (guard.cases.map Case.branch) guard.otherwise

theorem selected_mem (guard : Guard Node) (truth : Nat → Bool) :
    guard.selected truth ∈ guard.options := pick_mem truth _ _

theorem exists_selected {guard : Guard Node} {option : Option Node} (h : option ∈ guard.options) :
    ∃ truth, guard.selected truth = option := exists_pick h

end Guard

/-- The code that a statement checks a property against. -/
def Code.selected? (truth : Nat → Bool) : Code → Option Code
  | .check _ (.choice cases otherwise) => some (pick truth (cases.map Prod.snd) otherwise)
  | _ => none

namespace Writing

variable {setting : Setting} {child : ChildWriter} {name : String} {node : Node} {p q : Progress}

/-- The statement of a conditional selects what the branch that the conditional selects becomes. -/
theorem Choice.Writes.selected {base : Option Node} {guard : Guard Node} {choice : Choice}
    (h : choice.Writes setting child base name guard) (truth : Nat → Bool) :
    ∃ code, (choice.statement name).selected? truth = some code ∧
      Gives (branch setting child base (guard.selected truth)) code := by
  refine ⟨pick truth choice.branches choice.otherwise, ?_, ?_⟩
  · rw [statement, Code.selected?, List.map_snd_zip (Nat.le_of_eq h.length_eq.symm)]
  · have hbranches : List.Forall₂ (fun option => Gives (branch setting child base option))
        (guard.cases.map Case.branch) choice.branches := List.forall₂_map_left_iff.2 h.branches
    exact pick_rel hbranches h.otherwise truth

/-- A statement follows a conditional that has nothing to fall back to: it asks for the absence of a
value if the branch is missing, and otherwise for what the branch describes. -/
structure Follows (setting : Setting) (child : ChildWriter) (guard : Guard Node) (statement : Code) :
    Prop where
  missing : ∀ truth, guard.selected truth = none → statement.selected? truth = some Code.absent
  present : ∀ truth branch, guard.selected truth = some branch →
    ∃ code, statement.selected? truth = some code ∧ Gives (field setting child branch) code

theorem Choice.Writes.follows {guard : Guard Node} {choice : Choice}
    (h : choice.Writes setting child none name guard) :
    Follows setting child guard (choice.statement name) := by
  constructor
  case missing =>
    intro truth hmissing
    obtain ⟨code, hselected, p, q, hrun⟩ := h.selected truth
    rw [hmissing] at hrun
    cases hrun
    exact hselected
  case present =>
    intro truth branch hpresent
    obtain ⟨code, hselected, hgives⟩ := h.selected truth
    rw [hpresent] at hgives
    exact ⟨code, hselected, hgives⟩

/-- No statement asks for the absence of a value merely because its own conditional comes to a missing
branch, as long as some conditional comes to a branch that is there. -/
def NeverVetoes (guards : List (Guard Node)) (statements : List Code) : Prop :=
  ∀ truth : Nat → Nat → Bool,
    (∃ (i : Nat) (guard : Guard Node),
      guards[i]? = some guard ∧ (guard.selected (truth i)).isSome = true) →
      ∀ (j : Nat) (guard : Guard Node) (statement : Code),
        guards[j]? = some guard → statements[j]? = some statement →
          ¬(guard.selected (truth j) = none ∧ statement.selected? (truth j) = some Code.absent)

theorem forall₂_getElem? {α β : Type} {R : α → β → Prop} {l : List α} {l' : List β} {i : Nat} {a : α}
    (h : List.Forall₂ R l l') (ha : l[i]? = some a) : ∃ b, l'[i]? = some b ∧ R a b := by
  induction h generalizing i with
  | nil => simp at ha
  | @cons _ b _ _ hone _ ih =>
    cases i with
    | zero => exact ⟨b, rfl, Option.some.inj ha ▸ hone⟩
    | succ i => exact ih ha

/-- If statements follow conditionals, a missing branch of one conditional vetoes a branch of any other
one: the outcomes of their tests do not depend on each other. -/
theorem neverVetoes_iff {guards : List (Guard Node)} {statements : List Code}
    (h : List.Forall₂ (Follows setting child) guards statements) :
    NeverVetoes guards statements ↔
      ∀ (i j : Nat) (guard other : Guard Node), i ≠ j → guards[i]? = some guard →
        guards[j]? = some other → (∃ branch, some branch ∈ guard.options) →
          none ∉ other.options := by
  constructor
  · rintro hnever i j guard other hne hguard hother ⟨branch, hbranch⟩ hnone
    obtain ⟨present, hpresent⟩ := Guard.exists_selected hbranch
    obtain ⟨missing, hmissing⟩ := Guard.exists_selected hnone
    obtain ⟨statement, hstatement, hfollows⟩ := forall₂_getElem? h hother
    -- The tests of the one conditional come out one way, and all others the other way.
    refine hnever (fun k => if k = i then present else missing) ⟨i, guard, hguard, ?_⟩ j other
      statement hother hstatement ?_
    · rw [if_pos rfl, hpresent]
      rfl
    · rw [if_neg hne.symm]
      exact ⟨hmissing, hfollows.missing missing hmissing⟩
  · rintro hcomplete truth ⟨i, guard, hguard, hpresent⟩ j other statement hother - ⟨hmissing, -⟩
    have hne : i ≠ j := by
      rintro rfl
      rw [hguard] at hother
      cases hother
      rw [hmissing] at hpresent
      cases hpresent
    obtain ⟨branch, hbranch⟩ := Option.isSome_iff_exists.1 hpresent
    refine hcomplete i j guard other hne hguard hother ⟨branch, ?_⟩ ?_
    · exact hbranch ▸ guard.selected_mem (truth i)
    · exact hmissing ▸ other.selected_mem (truth j)

/-- Every conditional of alternatives that have nothing but conditional members becomes one statement,
which selects what its own conditional selects: the absence of a value if that branch is missing,
whatever the other conditionals select. So a missing branch never vetoes a branch that is there if and
only if no conditional lacks a branch beside another one that has a branch. -/
theorem property_missing_branches {property : Property} (hkind : node.kind = .alternatives)
    (hmembers : node.members = [])
    (h : Writing.property setting child name node p = .ok (property, q)) :
    List.Forall₂ (Follows setting child) node.guards property.statements ∧
      (NeverVetoes node.guards property.statements ↔
        ∀ (i j : Nat) (guard other : Guard Node), i ≠ j → node.guards[i]? = some guard →
          node.guards[j]? = some other → (∃ branch, some branch ∈ guard.options) →
            none ∉ other.options) := by
  have hbase : guardBase node = none := if_pos ⟨hkind, by rw [hmembers]; rfl⟩
  have hfollows : List.Forall₂ (Follows setting child) node.guards property.statements := by
    refine (property_statements h).imp ?_
    rintro guard _ ⟨choice, hwrites, rfl⟩
    rw [hbase] at hwrites
    exact hwrites.follows
  exact ⟨hfollows, neverVetoes_iff hfollows⟩

/-- Alternatives with two conditional members that have all their branches. -/
theorem property_missing_branches_none :
    let described (kind : String) : Value := .map [(.str "type", .str kind)]
    let member (reference : String) : Value := .map [(.str "ref", .str reference), (.str "is", .int 1),
      (.str "then", described "string"), (.str "otherwise", described "number")]
    let raw : Value := .map [(.str "type", .str "object"), (.str "keys", .map
      [(.str "x", .map [(.str "type", .str "alternatives"),
        (.str "matches", .list [member "a", member "b"])])])]
    let setting : Setting := ⟨{}, .builtin⟩
    ∃ root k property q, Node.ofValue (64 : Nat) raw = .ok root ∧ ("x", k) ∈ root.keys.getD [] ∧
      k.guards.length = 2 ∧
      Writing.property setting (write setting 63) "x" k {} = .ok (property, q) ∧
      NeverVetoes k.guards property.statements := by
  intro described member raw setting
  obtain ⟨root, k, property, q, hread, hk, hkind, hmembers, hguards, hrun, hpresent⟩ :
      ∃ root k property q, Node.ofValue (64 : Nat) raw = .ok root ∧ ("x", k) ∈ root.keys.getD [] ∧
        k.kind = .alternatives ∧ k.members = [] ∧ k.guards.length = 2 ∧
        Writing.property setting (write setting 63) "x" k {} = .ok (property, q) ∧
        (k.guards.all fun guard => guard.options.all Option.isSome) = true :=
    ⟨_, _, _, _, rfl, .head _, rfl, rfl, rfl, rfl, rfl⟩
  refine ⟨root, k, property, q, hread, hk, hguards, hrun, ?_⟩
  apply (property_missing_branches hkind hmembers hrun).2.2
  intro i j guard other _ _ hother _ hnone
  have hall := List.all_eq_true.1 hpresent other (List.mem_of_getElem? hother)
  exact absurd (List.all_eq_true.1 hall none hnone) (by simp)

/-- Alternatives with two conditional members and no branches for the case that the tests do not hold.
If only the first test holds, then the statement of the second member rules out the string that the
first one asks for. -/
theorem property_vetoes :
    let described (kind : String) : Value := .map [(.str "type", .str kind)]
    let member (reference kind : String) : Value := .map [(.str "ref", .str reference),
      (.str "is", .int 1), (.str "then", described kind)]
    let raw : Value := .map [(.str "type", .str "object"), (.str "keys", .map
      [(.str "x", .map [(.str "type", .str "alternatives"),
        (.str "matches", .list [member "a" "string", member "b" "number"])])])]
    let setting : Setting := ⟨{}, .builtin⟩
    ∃ root k property q, Node.ofValue (64 : Nat) raw = .ok root ∧ ("x", k) ∈ root.keys.getD [] ∧
      k.kind = .alternatives ∧ k.members = [] ∧
      Writing.property setting (write setting 63) "x" k {} = .ok (property, q) ∧
      ¬NeverVetoes k.guards property.statements := by
  intro described member raw setting
  obtain ⟨root, k, property, q, hread, hk, hkind, hmembers, hrun, first, second, statement, hfirst,
      hsecond, hstatement, hpresent, hmissing, hselected⟩ :
      ∃ root k property q, Node.ofValue (64 : Nat) raw = .ok root ∧ ("x", k) ∈ root.keys.getD [] ∧
        k.kind = .alternatives ∧ k.members = [] ∧
        Writing.property setting (write setting 63) "x" k {} = .ok (property, q) ∧
        ∃ first second statement, k.guards[0]? = some first ∧ k.guards[1]? = some second ∧
          property.statements[1]? = some statement ∧
          (first.selected fun _ => true).isSome = true ∧ second.selected (fun _ => false) = none ∧
          statement.selected? (fun _ => false) = some Code.absent :=
    ⟨_, _, _, _, rfl, .head _, rfl, rfl, rfl, _, _, _, rfl, rfl, rfl, rfl, rfl, rfl⟩
  refine ⟨root, k, property, q, hread, hk, hkind, hmembers, hrun, fun hnever => ?_⟩
  exact hnever (fun i _ => i == 0) ⟨0, first, hfirst, hpresent⟩ 1 second statement hsecond hstatement
    ⟨hmissing, hselected⟩

end Writing

end Schemata
