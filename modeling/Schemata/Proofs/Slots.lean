import Mathlib.Data.List.Induction
import Schemata.Proofs.Pieces
/-!
The slot of a conditional property accepts all that its checks can ask for.

A conditional is written as a choice: one test and one branch per case, and one more branch for the
case that no test holds. The choices of a property are used twice. Each becomes one statement that
checks the property against the branch that is selected, and the branches of all of them, each once,
make up the slot. The two are built apart, so that it takes a proof that no statement selects a branch
which the slot has lost.

Component: the writer of objects and of conditional properties. Main results:
- `appearance_slots` — the slots are the branches that look different, in order;
- `guardedField_choices` — slot and statements are made of the same choices;
- `object_covers_checks` — every branch that a check can ask for is in the slot of its property.
-/

namespace Schemata

namespace Code

def selectable : Code → List Code
  | .check _ (.choice cases otherwise) => cases.map Prod.snd ++ [otherwise]
  | _ => []

def checked? : Code → Option String
  | .check field _ => some field
  | _ => none

/-- The code that accepts what some members accept: the member itself if there is only one. -/
inductive Unites : List Code → Code → Prop where
  | one (member : Code) : Unites [member] member
  | many {members : List Code} (h : 2 ≤ members.length) :
    Unites members (.call "z.union" [.array members])

theorem unites_union {members : List Code} (h : members ≠ []) : Unites members (union members) := by
  apply union_cases
  · rintro member rfl
    exact .one member
  · exact fun hone => .many (two_le_length h hone)

theorem chainAll_append (target : Code) (calls calls' : List Call) :
    target.chainAll (calls ++ calls') = (target.chainAll calls).chainAll calls' :=
  List.foldl_append

end Code

namespace Writing

/-! ## Steps that give a value -/

/-- A step gives a value from some progress. -/
def Gives {α : Type} (x : Write α) (a : α) : Prop := ∃ p q, x p = .ok (a, q)

theorem Gives.good {α : Type} {C : Contract} {good : α → Prop} {x : Write α} {a : α}
    (h : Gives x a) (hx : C.Holds good x) : good a := by
  obtain ⟨p, q, hrun⟩ := h
  exact (hx.1 p a q hrun).1

theorem mapM_gives {α β : Type} {f : α → Write β} {l : List α} {p q : Progress} {bs : List β}
    (h : l.mapM f p = .ok (bs, q)) : List.Forall₂ (fun a b => Gives (f a) b) l bs := by
  induction l generalizing p bs with
  | nil =>
    cases h
    exact .nil
  | cons a l ih =>
    rw [List.mapM_cons] at h
    obtain ⟨b, p₁, hb, h⟩ := bind_ok.1 h
    obtain ⟨bs', q₁, hbs, h⟩ := bind_ok.1 h
    cases h
    exact .cons ⟨p, p₁, hb⟩ (ih hbs)

/-! ## Slots -/

/-- The slots are the pieces of code that look different, in the order of their first occurrence. -/
theorem appearance_slots (codes : List Code) :
    (codes.foldl addSlot []).map Code.appearance = (codes.map Code.appearance).eraseDups := by
  induction codes using List.reverseRecOn with
  | nil => rfl
  | append_singleton codes code ih =>
    have hfound : (codes.foldl addSlot []).any code.looksLike = true ↔
        code.appearance ∈ codes.map Code.appearance := by
      rw [← List.mem_eraseDups, ← ih, List.any_eq_true, List.mem_map]
      exact exists_congr fun slot => and_congr_right fun _ => Code.looksLike_iff.trans eq_comm
    rw [List.foldl_append, List.foldl_cons, List.foldl_nil, List.map_append, List.map_singleton,
      List.eraseDups_append, ← ih, addSlot, List.removeAll]
    by_cases hmem : code.appearance ∈ codes.map Code.appearance
    · rw [if_pos (hfound.2 hmem), List.filter_cons_of_neg (by simpa using hmem), List.filter_nil,
        List.eraseDups_nil, List.append_nil]
    · rw [if_neg (mt hfound.1 hmem), List.filter_cons_of_pos (by simpa using hmem), List.filter_nil,
        List.map_append]
      rfl

theorem slots_sublist (codes : List Code) : (codes.foldl addSlot []).Sublist codes := by
  induction codes using List.reverseRecOn with
  | nil => exact .slnil
  | append_singleton codes code ih =>
    rw [List.foldl_append, List.foldl_cons, List.foldl_nil, addSlot]
    split
    · exact ih.trans (List.sublist_append_left codes [code])
    · exact ih.append (List.Sublist.refl [code])

theorem mem_slots {codes : List Code} {code : Code} (h : code ∈ codes) :
    ∃ slot ∈ codes.foldl addSlot [], slot.looksLike code = true := by
  have happearance : code.appearance ∈ (codes.foldl addSlot []).map Code.appearance := by
    rw [appearance_slots, List.mem_eraseDups]
    exact List.mem_map_of_mem h
  obtain ⟨slot, hslot, heq⟩ := List.mem_map.1 happearance
  exact ⟨slot, hslot, Code.looksLike_iff.2 heq⟩

/-! ## Conditionals -/

/-- A conditional as it is written: a test and a branch per case, and a branch for the case that no
test holds. -/
structure Choice where
  tests : List Code
  branches : List Code
  otherwise : Code

namespace Choice

/-- The branches that a choice selects one of. -/
def fragments (choice : Choice) : List Code := choice.branches ++ [choice.otherwise]

/-- The statement that checks a property against the branch that a choice selects. -/
def statement (name : String) (choice : Choice) : Code :=
  .check name (.choice (choice.tests.zip choice.branches) choice.otherwise)

/-- A choice is what the writer makes of a conditional: the tests and the branches stand in the order of
the cases. -/
structure Writes (setting : Setting) (child : ChildWriter) (base : Option Node) (name : String)
    (guard : Guard Node) (choice : Choice) : Prop where
  tests : ∃ access, guard.reference.access name guard.path = .ok access ∧
    List.Forall₂ (fun case => Gives (test child access case)) guard.cases choice.tests
  branches : List.Forall₂ (fun case => Gives (branch setting child base case.branch)) guard.cases
    choice.branches
  otherwise : Gives (branch setting child base guard.otherwise) choice.otherwise

variable {setting : Setting} {child : ChildWriter} {base : Option Node} {name : String}
  {guard : Guard Node} {choice : Choice}

theorem Writes.length_eq (h : choice.Writes setting child base name guard) :
    choice.tests.length = choice.branches.length := by
  obtain ⟨access, -, htests⟩ := h.tests
  rw [← htests.length_eq, ← h.branches.length_eq]

theorem Writes.selectable_statement (h : choice.Writes setting child base name guard) :
    (choice.statement name).selectable = choice.fragments := by
  rw [statement, Code.selectable, List.map_snd_zip (Nat.le_of_eq h.length_eq.symm), fragments]

end Choice

variable {setting : Setting} {child : ChildWriter} {name : String} {node : Node} {p q : Progress}

/-- A conditional that is written has become a choice. -/
theorem selection_choice {base : Option Node} {guard : Guard Node} {s : Selection}
    (h : selection setting child base name guard p = .ok (s, q)) :
    ∃ choice : Choice, choice.Writes setting child base name guard ∧
      s = ⟨choice.fragments, choice.statement name⟩ := by
  obtain ⟨access, p₁, haccess, h⟩ := bind_ok.1 h
  obtain ⟨tests, p₂, htests, h⟩ := bind_ok.1 h
  obtain ⟨branches, p₃, hbranches, h⟩ := bind_ok.1 h
  obtain ⟨otherwise, p₄, hotherwise, h⟩ := bind_ok.1 h
  obtain ⟨-, p₅, -, h⟩ := bind_ok.1 h
  cases h
  refine ⟨⟨tests, branches, otherwise⟩, ⟨⟨access, (lift_ok.1 haccess).1, ?_⟩, ?_, ?_⟩, rfl⟩
  · exact mapM_gives htests
  · exact mapM_gives hbranches
  · exact ⟨p₃, p₄, hotherwise⟩

/-- Conditionals that are written one after the other have become choices, one per conditional. -/
theorem selections_choices {base : Option Node} {guards : List (Guard Node)}
    {selections : List Selection}
    (h : List.Forall₂ (fun guard => Gives (selection setting child base name guard)) guards
      selections) :
    ∃ choices : List Choice,
      List.Forall₂ (fun guard choice => choice.Writes setting child base name guard) guards choices ∧
        selections.map Selection.statement = choices.map (Choice.statement name) ∧
        selections.flatMap Selection.branches = choices.flatMap Choice.fragments := by
  induction h with
  | nil => exact ⟨[], .nil, rfl, rfl⟩
  | cons hone _ ih =>
    obtain ⟨p, q, hrun⟩ := hone
    obtain ⟨choice, hchoice, rfl⟩ := selection_choice hrun
    obtain ⟨choices, hchoices, hstatements, hbranches⟩ := ih
    refine ⟨choice :: choices, .cons hchoice hchoices, ?_, ?_⟩
    · rw [List.map_cons, List.map_cons, hstatements]
    · rw [List.flatMap_cons, List.flatMap_cons, hbranches]

/-- The slot and the statements of a conditional property are made of the same choices. -/
theorem guardedField_choices {first : Guard Node} {code : Code} {statements : List Code}
    (h : guardedField setting child name node first p = .ok ((code, statements), q)) :
    ∃ choices : List Choice,
      List.Forall₂ (fun guard choice => choice.Writes setting child (guardBase node) name guard)
        node.guards choices ∧
        statements = choices.map (Choice.statement name) ∧
        code = Code.union ((choices.flatMap Choice.fragments).foldl addSlot []) := by
  simp only [guardedField] at h
  split at h
  · cases h
  · obtain ⟨selections, p₁, hselections, h⟩ := bind_ok.1 h
    cases h
    obtain ⟨choices, hchoices, hstatements, hbranches⟩ :=
      selections_choices (mapM_gives hselections)
    exact ⟨choices, hchoices, hstatements, by rw [hbranches]⟩

/-! ## Properties -/

/-- A property with conditionals: each conditional has become one statement that checks the property,
in their order. The slot unites the branches of all of them, each once in the order of their first
occurrence, and every branch that a statement can select is a member of it. -/
structure Covered (setting : Setting) (child : ChildWriter) (node : Node) (property : Property)
    (choices : List Choice) (slots : List Code) : Prop where
  written : List.Forall₂
    (fun guard choice => choice.Writes setting child (guardBase node) property.name guard)
    node.guards choices
  statements : property.statements = choices.map (Choice.statement property.name)
  slot : Code.Unites slots property.code
  distinct : slots.map Code.appearance =
    ((choices.flatMap Choice.fragments).map Code.appearance).eraseDups
  among : slots.Sublist (choices.flatMap Choice.fragments)
  covers : ∀ statement ∈ property.statements, ∀ branch ∈ statement.selectable,
    ∃ slot ∈ slots, slot.looksLike branch = true

theorem forall₂_ne_nil {α β : Type} {R : α → β → Prop} {l : List α} {l' : List β}
    (h : List.Forall₂ R l l') (hl : l ≠ []) : l' ≠ [] :=
  ne_nil_of_length_eq h.length_eq.symm hl

/-- What a guarded property becomes is covered by its slot. -/
theorem guardedField_covered {first : Guard Node} {code : Code} {statements : List Code}
    (hguards : node.guards ≠ [])
    (h : guardedField setting child name node first p = .ok ((code, statements), q)) :
    ∃ choices slots, Covered setting child node ⟨name, code, statements⟩ choices slots := by
  obtain ⟨choices, hwritten, rfl, rfl⟩ := guardedField_choices h
  have hfragments : choices.flatMap Choice.fragments ≠ [] := by
    obtain ⟨choice, hchoice⟩ := List.exists_mem_of_ne_nil _ (forall₂_ne_nil hwritten hguards)
    exact fun hnone => by simpa [Choice.fragments] using List.flatMap_eq_nil_iff.1 hnone choice hchoice
  refine ⟨choices, _, ⟨hwritten, rfl, Code.unites_union (slots_ne_nil (.inl hfragments)),
    appearance_slots _, slots_sublist _, fun statement hstatement branch hbranch => ?_⟩⟩
  obtain ⟨choice, hchoice, rfl⟩ := List.mem_map.1 hstatement
  obtain ⟨guard, -, hwrites⟩ := forall₂_mem_right hwritten choice hchoice
  rw [hwrites.selectable_statement] at hbranch
  exact mem_slots (List.mem_flatMap.2 ⟨choice, hchoice, hbranch⟩)

/-- A property as it is written: its slot covers its statements if it has conditionals, and otherwise
it has no statements. -/
structure Slotted (setting : Setting) (child : ChildWriter) (key : String × Node)
    (property : Property) : Prop where
  name : property.name = key.1
  plain : key.2.guards = [] → property.statements = [] ∧
    Gives (field setting child key.2) property.code
  guarded : key.2.guards ≠ [] → ∃ choices slots,
    Covered setting child key.2 property choices slots

theorem property_slotted {property : Property}
    (h : Writing.property setting child name node p = .ok (property, q)) :
    Slotted setting child (name, node) property := by
  unfold Writing.property at h
  cases hguards : node.guards with
  | nil =>
    rw [hguards] at h
    obtain ⟨code, p₁, hcode, h⟩ := bind_ok.1 h
    cases h
    exact ⟨rfl, fun _ => ⟨rfl, p, _, hcode⟩, fun hne => absurd hguards hne⟩
  | cons first rest =>
    rw [hguards] at h
    obtain ⟨⟨code, statements⟩, p₁, hrun, h⟩ := bind_ok.1 h
    cases h
    have hne : node.guards ≠ [] := by simp [hguards]
    exact ⟨rfl, fun hnone => absurd hnone hne, fun _ => guardedField_covered hne hrun⟩

/-- A property has one statement per conditional, which is that of a choice made from it. -/
theorem property_statements {property : Property}
    (h : Writing.property setting child name node p = .ok (property, q)) :
    List.Forall₂ (fun guard statement => ∃ choice : Choice,
      choice.Writes setting child (guardBase node) name guard ∧ statement = choice.statement name)
      node.guards property.statements := by
  have hslotted := property_slotted h
  by_cases hguards : node.guards = []
  · rw [(hslotted.plain hguards).1, hguards]
    exact .nil
  · obtain ⟨choices, slots, hcovered⟩ := hslotted.guarded hguards
    have hname : property.name = name := hslotted.name
    have hwritten := hcovered.written
    rw [hname] at hwritten
    rw [hcovered.statements, hname, List.forall₂_map_right_iff]
    exact hwritten.imp fun guard choice hwrites => ⟨choice, hwrites, rfl⟩

/-- A property has one statement per conditional, and each of them checks that property. -/
theorem Slotted.checked_statements {key : String × Node} {property : Property}
    (h : Slotted setting child key property) :
    property.statements.map Code.checked? = key.2.guards.map fun _ => some key.1 := by
  by_cases hguards : key.2.guards = []
  · rw [(h.plain hguards).1, hguards, List.map_nil, List.map_nil]
  · obtain ⟨choices, slots, hcovered⟩ := h.guarded hguards
    have hchecked : Code.checked? ∘ Choice.statement property.name = fun _ => some key.1 := by
      rw [← h.name]
      rfl
    rw [hcovered.statements, List.map_map, hchecked, List.map_const', List.map_const',
      hcovered.written.length_eq]

/-- The statements of several properties check one property after the other. -/
theorem checked_statements {keys : List (String × Node)} {properties : List Property}
    (h : List.Forall₂ (Slotted setting child) keys properties) :
    (properties.flatMap Property.statements).map Code.checked? =
      keys.flatMap fun key => key.2.guards.map fun _ => some key.1 := by
  induction h with
  | nil => rfl
  | cons hone _ ih =>
    rw [List.flatMap_cons, List.map_append, List.flatMap_cons, hone.checked_statements, ih]

/-- Properties have no statements if and only if none of them has conditionals. -/
theorem statements_eq_nil {keys : List (String × Node)} {properties : List Property}
    (h : List.Forall₂ (Slotted setting child) keys properties) :
    properties.flatMap Property.statements = [] ↔ ∀ key ∈ keys, key.2.guards = [] := by
  rw [← List.map_eq_nil_iff, checked_statements h, List.flatMap_eq_nil_iff]
  simp only [List.map_eq_nil_iff]

/-! ## Objects -/

theorem applyUnknown_calls (setting : Setting) (node : Node) (target : Code) :
    ∃ calls, applyUnknown setting node target = target.chainAll calls ∧
      ∀ call ∈ calls, call = ⟨"passthrough", []⟩ ∨ call = ⟨"strict", []⟩ := by
  unfold applyUnknown
  split
  · exact ⟨[⟨"passthrough", []⟩], rfl, by simp⟩
  · split
    · exact ⟨[⟨"passthrough", []⟩], rfl, by simp⟩
    · split
      · exact ⟨[⟨"strict", []⟩], rfl, by simp⟩
      · exact ⟨[], rfl, by simp⟩

/-- An object that is written, by whatever writer of the level below, has one property per key in the
order of the keys. What is chained to it is what it says about other keys, then its rules, and last, if
and only if one of its properties has conditionals, the statements of all properties: one per
conditional, in the order of the keys and of their conditionals. The slot of every property with
conditionals covers the statements that check it. -/
theorem object_covers_checks {code : Code} (h : object setting child node p = .ok (code, q)) :
    ∃ properties unknown rules checks,
      code = (Code.call "z.object" [.object (properties.map fun p => (p.name, p.code))]).chainAll
          (unknown ++ rules ++ checks) ∧
        (∀ call ∈ unknown, call = ⟨"passthrough", []⟩ ∨ call = ⟨"strict", []⟩) ∧
        allRuleCalls setting node = .ok rules ∧
        (checks = if (node.keys.getD []).any fun key => !key.2.guards.isEmpty then
            [⟨"superRefine", [.checks (properties.flatMap Property.statements)]⟩]
          else []) ∧
        ((properties.flatMap Property.statements).map Code.checked? =
          (node.keys.getD []).flatMap fun key => key.2.guards.map fun _ => some key.1) ∧
        List.Forall₂ (Slotted setting child) (node.keys.getD []) properties := by
  obtain ⟨properties, p₁, hproperties, h⟩ := bind_ok.1 h
  obtain ⟨ruled, p₂, hruled, h⟩ := bind_ok.1 h
  cases h
  obtain ⟨rules, hrules, rfl⟩ := applyRules_ok (lift_ok.1 hruled).1
  have hslotted : List.Forall₂ (Slotted setting child) (node.keys.getD []) properties := by
    refine (mapM_gives hproperties).imp fun key property hgives => ?_
    obtain ⟨p, q, hrun⟩ := hgives
    exact property_slotted hrun
  obtain ⟨unknown, hunknown, hcalls⟩ := applyUnknown_calls setting node
    (.call "z.object" [.object (properties.map fun p => (p.name, p.code))])
  have hnone : (properties.flatMap Property.statements).isEmpty = true ↔
      ¬((node.keys.getD []).any fun key => !key.2.guards.isEmpty) = true := by
    rw [List.isEmpty_iff, statements_eq_nil hslotted]
    simp
  refine ⟨properties, unknown, rules, _, ?_, hcalls, hrules, rfl, checked_statements hslotted,
    hslotted⟩
  rw [Code.chainAll_append, Code.chainAll_append, ← hunknown, applyChecks]
  by_cases hany : ((node.keys.getD []).any fun key => !key.2.guards.isEmpty) = true
  · rw [if_pos hany, if_neg fun hempty => hnone.1 hempty hany]
    rfl
  · rw [if_neg hany, if_pos (hnone.2 hany)]
    rfl

/-- An object with a plain property and two conditional ones. One of them has two conditionals, which
have a branch in common and fall back to the property itself. -/
theorem object_covers_checks_shared :
    let guard (reference : String) (branches : List Node) : Guard Node :=
      { reference := { segments := [reference] }
        cases := branches.map fun branch => { condition := { kind := .number }, branch := branch } }
    let bounded (n : Int) : Node := { kind := .string, rules := [⟨"max", [.int n]⟩] }
    let size : Node := { kind := .string
                         guards := [guard "plain" [bounded 1, bounded 2], guard "unit" [bounded 2]] }
    let unit : Node := { kind := .string, guards := [guard "plain" [{ kind := .string }]] }
    let node : Node :=
      { kind := .object
        keys := some [("plain", { kind := .number }), ("size", size), ("unit", unit)] }
    let setting : Setting := ⟨{}, .builtin⟩
    ∃ code q, object setting (write setting 1) node {} = .ok (code, q) ∧
      ∃ (target : Code) (statements : List Code),
        code = target.chain ⟨"superRefine", [.checks statements]⟩ ∧
          statements.map Code.checked? = [some "size", some "size", some "unit"] := by
  intro guard bounded size unit node setting
  obtain ⟨code, q, hrun⟩ : ∃ code q, object setting (write setting 1) node {} = .ok (code, q) :=
    ⟨_, _, rfl⟩
  obtain ⟨properties, unknown, rules, checks, hcode, -, -, hchecks, hchecked, -⟩ :=
    object_covers_checks hrun
  rw [hchecks, Code.chainAll_append] at hcode
  exact ⟨code, q, hrun, _, _, hcode, hchecked⟩

end Writing

end Schemata
