import Schemata.Proofs.Parts
import Schemata.Proofs.Pieces
import Schemata.Proofs.SteadyReading
/-!
Lists of all values that are accepted.

A description can list the values that are accepted, and say that there are no others. So does a
condition that is given as a value or as a list of values. Nodes do not keep that a list is complete:
they have listed values, or they have none. Main statement: the code of such a node is made from the
union of the listed values exactly if there are any, and from the constructor of its kind with all its
rules if the list is empty. A branch keeps the list of its base unless it has one of its own.

Component: the reader and the writer of listed values. Main results:
- `readCondition_values` — a condition that is no description is a node that lists its values;
- `primitive_ok` — the code of a node without children, from its values or from its rules;
- `level_of_lists` — the code of a node with a complete list.
-/

namespace Schemata

/-! ## Nodes with a complete list -/

/-- The values that a description lists under both of its keys for values. -/
def Entries.listedValues (entries : Entries) : List Value :=
  (entries.field "valids").listed?.getD [] ++ (entries.field "allow").listed?.getD []

/-- A node was read from something that lists all values it accepts: from a description that says so
and is not forbidden, or from the values of a condition. -/
inductive Node.Lists : Node → List Value → Prop where
  | only {limit : Int} {levels : Nat} {entries flags : Entries} {path : Path} {n : Node}
    (hread : Node.read limit levels (.map entries) path = .ok n)
    (hflags : entries.field "flags" = .map flags) (honly : (flags.field "only").truthy = true)
    (hkind : n.kind.hasLiterals = true) (hopen : n.isForbidden = false) :
    Lists n entries.listedValues
  | equal {child : ChildReader} {v : Value} {path : Path} {n : Node}
    (hread : Case.readCondition child (some v) path = .ok n) (hplain : Case.isDescription v = false)
    (hitems : v.items? = none) : Lists n [v]
  | oneOf {child : ChildReader} {v : Value} {values : List Value} {path : Path} {n : Node}
    (hread : Case.readCondition child (some v) path = .ok n) (hitems : v.items? = some values) :
    Lists n values

theorem readLiterals_ok {raw : Value} {path : Path} {values : List Value}
    (h : readLiterals raw path = .ok values) : raw.listed? = some values := by
  cases hlisted : raw.listed? with
  | none =>
    -- What is no list is refused before anything else.
    cases raw <;> cases hlisted <;> cases h
  | some items =>
    rw [readLiterals_of_listed? hlisted] at h
    obtain ⟨-, -, hitems⟩ := Outcome.bind_ok.1 h
    cases hitems
    rfl

/-- A condition that is no description is a node that lists its values. -/
theorem readCondition_values {child : ChildReader} {v : Value} {path : Path} {n : Node}
    (h : Case.readCondition child (some v) path = .ok n) (hplain : Case.isDescription v = false) :
    n = Case.listedCondition (v.items?.getD [v]) path := by
  simp only [Case.readCondition, hplain, Bool.false_eq_true, if_false] at h
  cases hitems : v.items? with
  | none =>
    rw [hitems] at h
    obtain ⟨-, -, hn⟩ := Outcome.bind_ok.1 h
    cases hn
    rfl
  | some items =>
    rw [hitems] at h
    obtain ⟨-, -, hn⟩ := Outcome.bind_ok.1 h
    cases hn
    rfl

/-- A node with a complete list has exactly the values of that list. -/
theorem Node.Lists.valids {n : Node} {values : List Value} (h : n.Lists values) :
    n.kind.hasLiterals = true ∧ n.isForbidden = false ∧ n.valids = values ∧ n.allow = [] := by
  cases h with
  | @only limit levels entries flags path n hread hflags honly hkind hopen =>
    cases levels with
    | zero => cases hread
    | succ levels =>
      simp only [Node.read, Node.readLevel_eq, Outcome.bind_ok, Outcome.pure_ok] at hread
      obtain ⟨_, ⟨⟩, kind, -, _, -, _, -, rawFlags, hraw, _, -, _, -, listed, hlisted, extra, hextra,
        _, -, _, -, _, -, _, -, _, -, _, -, _, -, _, -, rfl⟩ := hread
      rw [hflags] at hraw
      cases hraw
      rw [if_pos honly, if_pos honly]
      refine ⟨hkind, hopen, ?_, rfl⟩
      rw [Entries.listedValues, readLiterals_ok hlisted, readLiterals_ok hextra]
      rfl
  | equal hread hplain hitems =>
    obtain rfl := readCondition_values hread hplain
    rw [hitems]
    exact ⟨rfl, rfl, rfl, rfl⟩
  | @oneOf child v values path n hread hitems =>
    have hplain : Case.isDescription v = false := by
      cases v with
      | map entries => cases hitems
      | _ => rfl
    obtain rfl := readCondition_values hread hplain
    rw [hitems]
    exact ⟨rfl, rfl, rfl, rfl⟩

namespace Writing

/-! ## The code of a node, stage by stage -/

/-- Code without the values that are invalid. -/
def excluded (node : Node) (code : Code) : Code :=
  if node.invalids.isEmpty then code
  else code.chain ⟨"refine", [.exclusion node.invalids, Code.message "Value is not allowed"]⟩

/-- Code with the values that are accepted besides. -/
def widened (node : Node) (code : Code) : Code :=
  let extras := node.allow.filter fun v => !v.isNull
  let wider := if extras.isEmpty then code else Code.union (code :: extras.map Code.exactly)
  if node.allow.any Value.isNull then wider.chain ⟨"nullable", []⟩ else wider

/-- Code with all that is said about a node besides its kind, its rules and its listed values. -/
def finished (node : Node) (code : Code) : Code :=
  addDescription node (widened node (excluded node code))

/-- The code of a node is made from some values, and from nothing else, exactly if there are any.
Without values it is made from the constructor of its kind with rules. -/
def MadeOf (node : Node) (values : List Value) (code : Code) : Prop :=
  ∃ base core, Code.base? node.kind = some base ∧ code = finished node core ∧
    (core = Code.union (values.map Code.exactly) ↔ values ≠ []) ∧
    ((∃ calls, core = base.chainAll calls) ↔ values = [])

variable {setting : Setting} {child : ChildWriter} {node : Node} {p q : Progress} {code target : Code}

theorem exactly_ok {v : Value} {code : Code} (h : exactly v = .ok code) : code = Code.exactly v := by
  obtain ⟨-, -, hcode⟩ := Outcome.bind_ok.1 h
  cases hcode
  rfl

theorem mapM_exactly_ok {values : List Value} {members : List Code}
    (h : values.mapM exactly = .ok members) : members = values.map Code.exactly := by
  induction values generalizing members with
  | nil =>
    cases h
    rfl
  | cons v values ih =>
    simp only [List.mapM_cons, Outcome.bind_ok, Outcome.pure_ok] at h
    obtain ⟨code, hv, rest, hrest, rfl⟩ := h
    rw [exactly_ok hv, ih hrest, List.map_cons]

theorem acceptMore_ok (h : acceptMore node target = .ok code) : code = widened node target := by
  obtain ⟨members, hmembers, hcode⟩ := Outcome.bind_ok.1 h
  cases hcode
  rw [mapM_exactly_ok hmembers]
  rfl

theorem complete_ok (h : complete node target p = .ok (code, q)) :
    code = addDescription node (widened node target) := by
  obtain ⟨wider, _, hwider, h⟩ := bind_ok.1 h
  obtain ⟨_, _, -, hlast⟩ := bind_ok.1 h
  cases hlast
  rw [acceptMore_ok (lift_ok.1 hwider).1]

theorem refuseInvalid_ok (h : refuseInvalid setting node target = .ok code) :
    code = target.chain
      ⟨"refine", [.exclusion node.invalids, Code.message "Value is not allowed"]⟩ := by
  obtain ⟨-, -, hcode⟩ := Outcome.bind_ok.1 h
  unfold addPredicate at hcode
  split at hcode
  · cases hcode
    rfl
  · cases hcode

theorem listed_ok (h : listed node p = .ok (code, q)) :
    code = Code.union (node.valids.map Code.exactly) := by
  have hunion : ∀ p, (do
      let members ← lift (node.valids.mapM exactly)
      return Code.union members : Write Code) p = .ok (code, q) →
      code = Code.union (node.valids.map Code.exactly) := by
    intro p h
    obtain ⟨members, _, hmembers, hcode⟩ := bind_ok.1 h
    cases hcode
    rw [mapM_exactly_ok (lift_ok.1 hmembers).1]
  simp only [listed] at h
  split at h
  · cases h
  · split at h
    · obtain ⟨_, r, -, h⟩ := bind_ok.1 h
      exact hunion r h
    · exact hunion p h

/-- The code of a node without children, from the stage that is made of its values or of its rules. -/
theorem primitive_ok {base : Code} (h : primitive setting node base p = .ok (code, q)) :
    ∃ core, code = finished node core ∧
      (node.valids = [] → ∃ calls, core = base.chainAll calls) ∧
      (node.valids ≠ [] → core = Code.union (node.valids.map Code.exactly)) := by
  have hfinish : ∀ core p, (if node.invalids.isEmpty then pure core >>= fun code => complete node code
      else lift (refuseInvalid setting node core) >>= fun code => complete node code) p =
        .ok (code, q) → code = finished node core := by
    intro core p h
    unfold finished excluded
    split at h
    · rename_i hnone
      rw [if_pos hnone]
      exact complete_ok h
    · rename_i hsome
      obtain ⟨refused, _, hrefused, h⟩ := bind_ok.1 h
      rw [if_neg hsome, ← refuseInvalid_ok (lift_ok.1 hrefused).1]
      exact complete_ok h
  simp only [primitive] at h
  obtain ⟨ruled, r, hruled, h⟩ := bind_ok.1 h
  split at h
  · rename_i hnone
    obtain ⟨calls, -, rfl⟩ := applyRules_ok (lift_ok.1 hruled).1
    refine ⟨_, hfinish _ r h, fun _ => ⟨calls, rfl⟩, fun hne => ?_⟩
    exact absurd (List.isEmpty_iff.1 hnone) hne
  · rename_i hsome
    obtain ⟨core, r', hcore, h⟩ := bind_ok.1 h
    refine ⟨core, hfinish core r' h, fun hnil => ?_, fun _ => listed_ok hcore⟩
    exact absurd (List.isEmpty_iff.2 hnil) hsome

/-! ## Values or rules, but never both -/

/-- The constructors that code for listed values is made with. -/
def listConstructors : List String := ["z.union", "z.literal", "z.null"]

theorem union_exactly (values : List Value) : ∃ callee ∈ listConstructors, ∃ args,
    Code.union (values.map Code.exactly) = .call callee args := by
  refine Code.union_cases
    (P := fun code => ∃ callee ∈ listConstructors, ∃ args, code = .call callee args) ?_ ?_
  · intro m hm
    obtain ⟨v, -, rfl⟩ : ∃ v ∈ values, Code.exactly v = m :=
      List.mem_map.1 (by rw [hm]; exact List.mem_singleton_self m)
    unfold Code.exactly
    split
    · exact ⟨"z.null", by decide, _, rfl⟩
    · exact ⟨"z.literal", by decide, _, rfl⟩
  · exact fun _ => ⟨"z.union", by decide, _, rfl⟩

theorem base_constructor {kind : Kind} {base : Code} (h : Code.base? kind = some base) :
    ∃ callee ∉ listConstructors, ∃ args, base = .call callee args := by
  cases kind with
  | object | array | alternatives | forbidden => cases h
  | string | number | boolean | date | any | binary =>
    cases h
    exact ⟨_, by decide, _, rfl⟩

/-- Listed values are never the constructor of a kind, whatever rules are added to it. -/
theorem union_ne_chainAll {kind : Kind} {base : Code} (hbase : Code.base? kind = some base)
    (values : List Value) (calls : List Code.Call) :
    Code.union (values.map Code.exactly) ≠ base.chainAll calls := by
  obtain ⟨callee, hcallee, args, hunion⟩ := union_exactly values
  obtain ⟨callee', hcallee', args', rfl⟩ := base_constructor hbase
  intro heq
  rw [hunion] at heq
  have hmethods := congrArg Code.methods heq
  rw [Code.methods_chainAll] at hmethods
  obtain rfl : calls = [] := by simpa [Code.methods] using hmethods
  obtain ⟨rfl, -⟩ := Code.call.inj heq
  exact hcallee' hcallee

theorem body_madeOf (hkind : node.kind.hasLiterals = true)
    (h : body setting child node p = .ok (code, q)) : MadeOf node node.valids code := by
  obtain ⟨base, hbase, hprimitive⟩ : ∃ base, Code.base? node.kind = some base ∧
      primitive setting node base p = .ok (code, q) := by
    cases hguards : node.guards with
    | cons guard rest =>
      simp only [body, hguards] at h
      cases h
    | nil =>
      cases hnode : node.kind with
      | string | number | boolean | any =>
        simp only [body, hguards, hnode, Code.base?] at h
        exact ⟨_, rfl, h⟩
      | date | binary | object | array | alternatives | forbidden =>
        rw [hnode] at hkind
        cases hkind
  obtain ⟨core, hcode, hrules, hvalues⟩ := primitive_ok hprimitive
  refine ⟨base, core, hbase, hcode, ⟨?_, hvalues⟩, ⟨?_, hrules⟩⟩
  · rintro hcore hnil
    obtain ⟨calls, hcalls⟩ := hrules hnil
    exact union_ne_chainAll hbase node.valids calls (hcore.symm.trans hcalls)
  · rintro ⟨calls, hcalls⟩
    by_contra hne
    exact union_ne_chainAll hbase node.valids calls ((hvalues hne).symm.trans hcalls)

/-- The code of a node, which may be a declared name and has its modifiers, goes back to code that is
made of some values. -/
def WritesFrom (setting : Setting) (node : Node) (values : List Value) (r : Code × Progress) : Prop :=
  ∃ inner p, MadeOf node values inner ∧ (do
    let code ← named node inner
    lift (modify setting node code)) p = .ok r

theorem level_writesFrom (hkind : node.kind.hasLiterals = true) (hopen : node.isForbidden = false)
    {r : Code × Progress} (h : level setting child node p = .ok r) :
    WritesFrom setting node node.valids r := by
  unfold level at h
  rw [if_neg (by simp [hopen])] at h
  obtain ⟨inner, q, hbody, h⟩ := bind_ok.1 h
  exact ⟨inner, q, body_madeOf hkind hbody, h⟩

/-! ## Branches and their bases -/

theorem merge_valids {base branch m : Node} (h : base.merge branch = .ok m)
    (hkind : m.kind.hasLiterals = true) :
    m.valids = if branch.valids = [] then base.valids else branch.valids := by
  rcases Node.merge_ok h with ⟨-, rfl⟩ | ⟨-, -, kind, -, rfl⟩
  · cases hkind
  · simp only [List.isEmpty_iff]

/-- Whatever the options, the rule table and the nodes below: the code of a node that is read with a
complete list of values is made of the union of these values, in their order, exactly if the list has
any, and of the constructor of its kind with rules if it has none. The same holds of the base that the
node is for its branches, and neither accepts values besides. As a branch, the node takes the list of
its base if its own is empty, and as a base it hands its list to the branches that have none. -/
theorem level_of_lists {n : Node} {values : List Value} (h : n.Lists values) (setting : Setting)
    (child : ChildWriter) (p : Progress) (r : Code × Progress) :
    (∀ m, m = n ∨ guardBase n = some m → level setting child m p = .ok r →
      m.allow = [] ∧ WritesFrom setting m values r) ∧
    (∀ base m : Node, base.merge n = .ok m → m.kind.hasLiterals = true → m.isForbidden = false →
      level setting child m p = .ok r →
        WritesFrom setting m (if values = [] then base.valids else values) r) ∧
    ∀ base branch m : Node, guardBase n = some base → base.merge branch = .ok m →
      m.kind.hasLiterals = true → m.isForbidden = false → level setting child m p = .ok r →
        WritesFrom setting m (if branch.valids = [] then values else branch.valids) r := by
  obtain ⟨hkind, hopen, hvalids, hallow⟩ := h.valids
  refine ⟨?_, ?_, ?_⟩
  · intro m hm hwrite
    rcases hm with rfl | hm
    · exact ⟨hallow, hvalids ▸ level_writesFrom hkind hopen hwrite⟩
    · obtain rfl := guardBase_eq hm
      refine ⟨hallow, ?_⟩
      rw [← hvalids]
      apply level_writesFrom _ _ hwrite
      · exact hkind
      · exact hopen
  · intro base m hmerge hliteral hopen hwrite
    have hfrom := level_writesFrom hliteral hopen hwrite
    rwa [merge_valids hmerge hliteral, hvalids] at hfrom
  · intro base branch m hbase hmerge hliteral hopen hwrite
    have hfrom := level_writesFrom hliteral hopen hwrite
    obtain rfl := guardBase_eq hbase
    rwa [merge_valids hmerge hliteral, hvalids] at hfrom

/-- A number with values under both keys, null among them, with a rule, an invalid value and a
description, and a condition with two values. -/
theorem level_of_lists_only :
    let description : Value := .map [(.str "type", .str "number"),
      (.str "flags", .map [(.str "only", .int 1), (.str "description", .str "size")]),
      (.str "rules", .list [.map [(.str "name", .str "integer")]]),
      (.str "valids", .list [.int 1, .str "x"]), (.str "allow", .tuple [.null]),
      (.str "invalids", .list [.str "x"])]
    (∃ n r, n.Lists [.int 1, .str "x", .null] ∧ Node.ofValue (64 : Nat) description = .ok n ∧
      level ⟨{}, Rulebook.builtin⟩ (write ⟨{}, Rulebook.builtin⟩ 63) n {} = .ok r ∧
      n.allow = [] ∧ WritesFrom ⟨{}, Rulebook.builtin⟩ n [.int 1, .str "x", .null] r) ∧
    ∃ n r, n.Lists [.int 1, .bool true] ∧
      level ⟨{}, Rulebook.builtin⟩ (write ⟨{}, Rulebook.builtin⟩ 63) n {} = .ok r ∧
      n.allow = [] ∧ WritesFrom ⟨{}, Rulebook.builtin⟩ n [.int 1, .bool true] r := by
  intro description
  obtain ⟨n, hread, hkind, hopen, r, hwrite⟩ : ∃ n, Node.ofValue (64 : Nat) description = .ok n ∧
      n.kind.hasLiterals = true ∧ n.isForbidden = false ∧ ∃ r,
        level ⟨{}, Rulebook.builtin⟩ (write ⟨{}, Rulebook.builtin⟩ 63) n {} = .ok r :=
    ⟨_, rfl, rfl, rfl, _, rfl⟩
  obtain ⟨c, hc, r', hwrite'⟩ : ∃ c,
      Case.readCondition (Node.read 64 63) (some (.list [.int 1, .bool true])) .root = .ok c ∧ ∃ r,
        level ⟨{}, Rulebook.builtin⟩ (write ⟨{}, Rulebook.builtin⟩ 63) c {} = .ok r :=
    ⟨_, rfl, _, rfl⟩
  have hlists : n.Lists [.int 1, .str "x", .null] := .only hread rfl rfl hkind hopen
  have hlists' : c.Lists [.int 1, .bool true] := .oneOf hc rfl
  exact ⟨⟨n, r, hlists, hread, hwrite, (level_of_lists hlists _ _ _ r).1 n (.inl rfl) hwrite⟩,
    c, r', hlists', hwrite', (level_of_lists hlists' _ _ _ r').1 c (.inl rfl) hwrite'⟩

end Writing

/-- Neither a string for which no value is listed nor a condition without values is an empty union:
the one accepts all strings, the other all values that are there. -/
theorem Compiler.compile_empty_list :
    let description : Value := .map [(.str "type", .str "string"),
      (.str "flags", .map [(.str "only", .bool true)])]
    (Code.union (([] : List Value).map Code.exactly)).text = "z.union([])" ∧
    (∃ n result, n.Lists [] ∧ Node.ofValue (64 : Nat) description = .ok n ∧
      Compiler.compile {} (.tree description) = .ok result ∧ result.code = "z.string()") ∧
    ∃ n code q, n.Lists [] ∧
      Writing.level ⟨{}, Rulebook.builtin⟩ (Writing.write ⟨{}, Rulebook.builtin⟩ 63) n {} =
        .ok (code, q) ∧
      code = (Code.call "z.any" []).chain ⟨"refine",
        [.raw "(value) => value !== undefined" .call, Code.message "Required"]⟩ := by
  intro description
  obtain ⟨n, hread, hkind, hopen, result, hresult, hcode⟩ : ∃ n,
      Node.ofValue (64 : Nat) description = .ok n ∧ n.kind.hasLiterals = true ∧
        n.isForbidden = false ∧ ∃ result, Compiler.compile {} (.tree description) = .ok result ∧
          result.code = "z.string()" :=
    ⟨_, rfl, rfl, rfl, _, rfl, rfl⟩
  obtain ⟨c, hc, code, q, hwrite, hcondition⟩ : ∃ c,
      Case.readCondition (Node.read 64 63) (some (.list [])) .root = .ok c ∧ ∃ code q,
        Writing.level ⟨{}, Rulebook.builtin⟩ (Writing.write ⟨{}, Rulebook.builtin⟩ 63) c {} =
          .ok (code, q) ∧
        code = (Code.call "z.any" []).chain ⟨"refine",
          [.raw "(value) => value !== undefined" .call, Code.message "Required"]⟩ :=
    ⟨_, rfl, _, _, rfl, rfl⟩
  have hlists : n.Lists [] := .only hread rfl rfl hkind hopen
  exact ⟨rfl, ⟨n, result, hlists, hread, hresult, hcode⟩, c, code, q, .oneOf hc rfl, hwrite,
    hcondition⟩

end Schemata
