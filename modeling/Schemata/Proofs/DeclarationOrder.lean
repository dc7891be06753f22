import Schemata.Proofs.References
/-!
Declarations come before their uses.

A declaration is added when the body of its node has been written, so that everything the body refers
to stands before it. `Recording` ties a declaration to the run that wrote its body, and `Extends` says
that each declaration was added to the ones before it with such a recording. The expression for the
whole description is left out if it is nothing but a declared name.

Component: the declarations of a compilation, `Declarations`, and the listing of the code. Main
results:
- `level_inOrder` — after its body, a node is declared in order;
- `topName_isSome_iff` — when the expression for the whole description is left out;
- `compile_inOrder` — both for every compilation that succeeds.
-/

namespace Schemata

theorem Text.join_eq_intercalate (separator : String) (pieces : List String) :
    join separator pieces = separator.intercalate pieces := by
  fun_induction join separator pieces with
  | case1 => rfl
  | case2 piece => rfl
  | case3 piece next rest ih => rw [ih, String.intercalate_cons_cons]

/-- An exported constant, with a line for its type behind it if asked for. -/
def Listing.exported (options : Options) (name body : String) : String :=
  "export const " ++ name ++ " = " ++ body ++ ";" ++
    if options.typeAliases then "\nexport type " ++ name ++ " = z.infer<typeof " ++ name ++ ">;"
    else ""

theorem Listing.constant_eq (options : Options) (name body : String) :
    constant options name body = exported options name body := by
  unfold constant exported
  cases options.typeAliases with
  | true => simp only [if_true, String.append_assoc]
  | false => simp only [Bool.false_eq_true, if_false, String.append_empty]

namespace Declarations

theorem contains_iff {d : Declarations} {name : String} : d.contains name = true ↔ name ∈ d.names := by
  simp [contains, find?, names, List.find?_isSome]

theorem not_mem_of_find? {d : Declarations} {name : String} (h : d.find? name = none) :
    name ∉ d.entries.map Declaration.name := by
  intro hmem
  obtain ⟨entry, hentry, rfl⟩ := List.mem_map.1 hmem
  simpa using List.find?_eq_none.1 h entry hentry

end Declarations

namespace Writing

/-! ## How declarations are added -/

/-- The node a declaration was made for, and the run that wrote its body. The run ended with the
declarations that stand before the new one. -/
structure Recording (setting : Setting) (levels : Nat) (root : Node) (earlier : List Declaration)
    (entry : Declaration) where
  /-- The levels below the node. -/
  below : Nat
  node : Node
  start : Progress
  finish : Progress
  reached : Reaches levels root (below + 1) node
  notForbidden : node.isForbidden = false
  declaredName : node.declaredName? = some entry.name
  path : node.path = entry.path
  written : body setting (write setting below) node start = .ok (entry.body, finish)
  finish_declared : finish.declared.entries = earlier

/-- A list of declarations that was made from another one by adding declarations at the end. What
each of them has to fulfil depends on the ones before it. -/
inductive Extends (O : List Declaration → Declaration → Prop) (start : List Declaration) :
    List Declaration → Prop where
  | refl : Extends O start start
  | snoc {entries : List Declaration} {entry : Declaration} (h : Extends O start entries)
    (hentry : O entries entry) : Extends O start (entries ++ [entry])

namespace Extends

variable {O : List Declaration → Declaration → Prop} {entries : List Declaration}

theorem trans {start rest : List Declaration} (h : Extends O start entries)
    (hrest : Extends O entries rest) : Extends O start rest := by
  induction hrest with
  | refl => exact h
  | snoc _ hentry ih => exact .snoc ih hentry

theorem get (h : Extends O [] entries) {k : Nat} {entry : Declaration}
    (hk : entries[k]? = some entry) : O (entries.take k) entry := by
  induction h with
  | refl => simp at hk
  | @snoc entries last h hlast ih =>
    rw [List.getElem?_append] at hk
    split at hk
    · rename_i hlt
      rw [List.take_append_of_le_length (Nat.le_of_lt hlt)]
      exact ih hk
    · -- Only the last entry is not among the ones before it.
      rename_i hle
      obtain ⟨hk', rfl⟩ : k = entries.length ∧ last = entry := by
        rw [List.getElem?_singleton] at hk
        split at hk
        · exact ⟨by omega, by simpa using hk⟩
        · cases hk
      rw [hk', List.take_left]
      exact hlast

theorem names_nodup (hO : ∀ earlier entry, O earlier entry →
    entry.name ∉ earlier.map Declaration.name) (h : Extends O [] entries) :
    (entries.map Declaration.name).Nodup := by
  induction h with
  | refl => simp
  | @snoc entries last h hlast ih =>
    rw [List.map_append, List.nodup_append]
    refine ⟨ih, by simp, ?_⟩
    rintro name hname _ hlast' rfl
    rw [List.map_singleton, List.mem_singleton] at hlast'
    exact hO entries last hlast (hlast' ▸ hname)

end Extends

/-- A declaration may be added if its name is new and its body was written before. -/
def MayAdd (setting : Setting) (levels : Nat) (root : Node) (earlier : List Declaration)
    (entry : Declaration) : Prop :=
  entry.name ∉ earlier.map Declaration.name ∧ Nonempty (Recording setting levels root earlier entry)

/-- Steps may add declarations that may be added, and may fail in any way. -/
def inOrder (setting : Setting) (levels : Nat) (root : Node) : Contract where
  change := fun p q => Extends (MayAdd setting levels root) p.declared.entries q.declared.entries
  failure := fun _ => True
  refl := fun _ => .refl
  trans := Extends.trans
  note := fun _ _ => .refl
  refusal := fun _ _ _ => trivial

section Order
variable {setting : Setting} {levels l : Nat} {root n : Node}

theorem inOrder_allows : (inOrder setting levels root).Allows setting n :=
  ⟨fun _ _ _ => trivial, fun _ _ _ _ => trivial, fun _ _ _ _ => trivial⟩

/-- After its body, a node is declared in order. -/
theorem level_inOrder (hreach : Reaches levels root (l + 1) n)
    (hc : ∀ m ∈ children n, (inOrder setting levels root).Holds (fun _ => True)
      (write setting l m)) :
    (inOrder setting levels root).Holds (fun _ => True) (level setting (write setting l) n) := by
  refine ⟨fun p a q h => ⟨trivial, ?_⟩, fun _ _ _ => trivial⟩
  unfold level at h
  split at h
  · cases h
    exact .refl
  · rename_i hf
    replace hf : n.isForbidden = false := by simpa using hf
    obtain ⟨code, p', hbody, h⟩ := bind_ok.1 h
    obtain ⟨code', q', hnamed, h⟩ := bind_ok.1 h
    obtain ⟨-, rfl⟩ := lift_ok.1 h
    -- The body is finished, with all its declarations, before the node itself is declared.
    have hbefore := ((body_holds Code.Closed.trivial hf inOrder_allows hc).1 p code p' hbody).2
    cases hname : n.declaredName? with
    | none =>
      simp only [named, hname] at hnamed
      cases hnamed
      exact hbefore
    | some name =>
      simp only [named, hname] at hnamed
      obtain ⟨-, ⟨rfl, -⟩ | ⟨hnew, rfl⟩⟩ := declare_ok hnamed
      · exact hbefore
      · refine hbefore.trans (.snoc .refl ⟨Declarations.not_mem_of_find? hnew, ⟨?_⟩⟩)
        exact ⟨l, n, p, p', hreach, hf, hname, rfl, hbody, rfl⟩

theorem write_inOrder (hreach : Reaches levels root l n) :
    (inOrder setting levels root).Holds (fun _ => True) (write setting l n) := by
  induction l generalizing n with
  | zero => exact write_zero_holds trivial
  | succ l ih => exact level_inOrder hreach fun m hm => ih (hreach.step hm)

end Order

end Writing

/-! ## When the code of a node is its name -/

namespace Node

/-- Whether the presence of a node adds to its code. -/
def changesPresence (n : Node) : Bool :=
  n.flags.presence == some .optional ||
    n.flags.presence == some .required && n.kind == .any && n.valids.isEmpty

/-- Whether presence, default or strip add to the code of a node. -/
def isModified (n : Node) : Bool :=
  n.changesPresence || n.flags.default.isSome || n.flags.strip == some true

theorem declaredName?_eq_some {n : Node} {name : String} :
    n.declaredName? = some name ↔ n.name = some name ∧ name ≠ "" := by
  simp [declaredName?, Option.filter_eq_some_iff]

end Node

namespace Writing

/-- Code is longer than before, or it has not changed. -/
def Longer (changed : Bool) (target code : Code) : Prop :=
  if changed then target.text.length < code.text.length else code = target

theorem Longer.trans {b b' : Bool} {target code last : Code} (h : Longer b target code)
    (h' : Longer b' code last) : Longer (b || b') target last := by
  cases b <;> cases b' <;> simp only [Longer, Bool.or_false, Bool.or_true, Bool.or_self,
    if_true, Bool.false_eq_true, if_false] at h h' ⊢
  · rw [h', h]
  · rwa [h] at h'
  · rwa [h']
  · omega

theorem chain_longer (target : Code) (call : Code.Call) : Longer true target (target.chain call) := by
  have hdot : ".".length = 1 := rfl
  simp only [Longer, if_true, Code.chain, Code.text, Text.methodText]
  split <;> simp only [String.length_append] <;> omega

variable {setting : Setting} {n : Node} {target code : Code}

theorem applyPresence_longer (h : applyPresence setting n target = .ok code) :
    Longer n.changesPresence target code := by
  unfold applyPresence at h
  split at h
  · rename_i hpresence
    cases h
    simpa [Node.changesPresence, hpresence] using chain_longer target _
  · rename_i hpresence
    split at h
    · rename_i hany
      simp only [refuseMissing, addPredicate] at h
      split at h <;> cases h
      simpa [Node.changesPresence, hpresence, hany] using chain_longer target _
    · rename_i hany
      cases h
      have : n.changesPresence = false := by simpa [Node.changesPresence, hpresence] using hany
      simp [Longer, this]
  · rename_i hoptional hrequired
    cases h
    have ho : (n.flags.presence == some .optional) = false := by simpa using hoptional
    have hr : (n.flags.presence == some .required) = false := by simpa using hrequired
    simp [Longer, Node.changesPresence, ho, hr]

theorem applyDefault_longer (h : applyDefault n target = .ok code) :
    Longer n.flags.default.isSome target code := by
  unfold applyDefault at h
  split at h
  · rename_i hdefault
    cases h
    simp [Longer, hdefault]
  · rename_i value hdefault
    obtain ⟨written, -, h⟩ := Outcome.bind_ok.1 h
    cases h
    rw [hdefault]
    exact chain_longer target _

theorem applyStrip_longer (h : applyStrip setting n target = .ok code) :
    Longer (n.flags.strip == some true) target code := by
  unfold applyStrip at h
  split at h
  · rename_i hstrip
    split at h <;> cases h
    rw [hstrip]
    exact chain_longer target _
  · rename_i hstrip
    cases h
    simp [Longer, hstrip]

theorem modify_longer (h : modify setting n target = .ok code) : Longer n.isModified target code := by
  simp only [modify, Outcome.bind_ok] at h
  obtain ⟨present, hpresence, defaulted, hdefault, hstrip⟩ := h
  exact ((applyPresence_longer hpresence).trans (applyDefault_longer hdefault)).trans
    (applyStrip_longer hstrip)

end Writing

namespace Compiler

theorem topName_of_name {root : Node} {top : Code} {declared : Declarations} {name : String}
    (h : root.name = some name) :
    (topName root top declared).isSome = true ↔ name ∈ declared.names ∧ top.text = name := by
  simp only [topName, h, ← Declarations.contains_iff]
  split <;> simp_all

theorem not_mem_names_empty {setting : Setting} {levels : Nat} {root : Node} {top : Code}
    {progress : Progress} (h : Writing.write setting levels root {} = .ok (top, progress)) :
    "" ∉ progress.declared.names := by
  have hordered := ((Writing.write_inOrder .root).1 {} top progress h).2
  intro hmem
  obtain ⟨entry, hentry, hname⟩ := List.mem_map.1 hmem
  obtain ⟨k, hk⟩ := List.mem_iff_getElem?.1 hentry
  obtain ⟨-, ⟨r⟩⟩ := hordered.get hk
  exact (Node.declaredName?_eq_some.1 r.declaredName).2 hname

/-- The code of the whole description is a declared name exactly if the description has a name, is not
forbidden and is not modified. -/
theorem topName_isSome_iff {setting : Setting} {levels : Nat} {root : Node} {top : Code}
    {progress : Progress} (h : Writing.write setting levels root {} = .ok (top, progress)) :
    (topName root top progress.declared).isSome = true ↔
      root.declaredName?.isSome = true ∧ root.isForbidden = false ∧ root.isModified = false := by
  cases levels with
  | zero => cases h
  | succ levels =>
    cases hname : root.declaredName? with
    | none =>
      -- A node without a name, or with the empty one, which is never declared.
      cases hraw : root.name with
      | none => simp [topName, hraw]
      | some name =>
        have hempty : name = "" := by
          by_cases hempty : name = ""
          · exact hempty
          · rw [Node.declaredName?_eq_some.2 ⟨hraw, hempty⟩] at hname
            cases hname
        have hnot := not_mem_names_empty h
        rw [topName_of_name hraw, hempty]
        simp [hnot]
    | some name =>
      rw [topName_of_name (Node.declaredName?_eq_some.1 hname).1]
      cases hf : root.isForbidden with
      | true =>
        -- A forbidden node declares nothing, whatever its name.
        simp only [Writing.write, Writing.level, hf, if_true] at h
        cases h
        simp [Declarations.names]
      | false =>
        have hdeclared := Writing.level_names h hf hname
        simp only [Writing.write, Writing.level, hf, Bool.false_eq_true, if_false] at h
        obtain ⟨code, q, -, h⟩ := Writing.bind_ok.1 h
        obtain ⟨code', q', hnamed, h⟩ := Writing.bind_ok.1 h
        simp only [Writing.named, hname] at hnamed
        obtain ⟨rfl, -⟩ := Writing.declare_ok hnamed
        have hlonger := Writing.modify_longer (Writing.lift_ok.1 h).1
        cases hm : root.isModified with
        | false =>
          simp only [Writing.Longer, hm, Bool.false_eq_true, if_false] at hlonger
          simp [hdeclared, hlonger, Code.text]
        | true =>
          -- Modified code is longer than the name it starts with.
          simp only [Writing.Longer, hm, if_true, Code.text] at hlonger
          have hne : top.text ≠ name := fun heq => by rw [heq] at hlonger; omega
          simp [hne]

/-- The code of a compilation: the line that brings in the library, a constant for each declaration, and
the expression for the whole description. -/
theorem listing_text {setting : Setting} {levels : Nat} {root : Node} {top : Code}
    {progress : Progress} (h : Writing.write setting levels root {} = .ok (top, progress))
    (options : Options) :
    Listing.text options top progress.declared (topName root top progress.declared) =
      "\n\n".intercalate ((if options.asModule then ["import \x7b z \x7d from \"zod\";"] else [])
        ++ progress.declared.entries.map
          (fun entry => Listing.exported options entry.name entry.body.text)
        ++ if root.declaredName?.isSome ∧ root.isForbidden = false ∧ root.isModified = false then []
          else [if options.asModule then Listing.exported options "schema" top.text else top.text]) := by
  have htop : Listing.topBlock options top (topName root top progress.declared) =
      if root.declaredName?.isSome ∧ root.isForbidden = false ∧ root.isModified = false then []
      else [if options.asModule then Listing.exported options "schema" top.text else top.text] := by
    simp only [← topName_isSome_iff h]
    cases topName root top progress.declared with
    | some name => rfl
    | none =>
      rw [Option.isSome_none, if_neg Bool.false_ne_true, Listing.topBlock, Listing.constant_eq]
      cases options.asModule <;> rfl
  have hitems : progress.declared.items.map
      (fun item => Listing.constant options item.1 item.2) =
        progress.declared.entries.map
          fun entry => Listing.exported options entry.name entry.body.text := by
    rw [Declarations.items, List.map_map]
    exact List.map_congr_left fun entry _ => Listing.constant_eq _ _ _
  rw [Listing.text, Text.join_eq_intercalate, Listing.blocks, htop, hitems]
  rfl

/-- The declarations of a compilation are in order: what the body of a declaration refers to is
declared before it, what the whole expression refers to is declared, and no name is declared twice. The
code has the declarations in this order, and then the expression; it is left out exactly if the
description has a name, is not forbidden and is not modified. -/
structure InOrder (c : Compiler) (root : Node) (top : Code) (declared : Declarations)
    (result : Result) : Prop where
  declarations : result.declarations = declared.names
  code : result.code = "\n\n".intercalate
    ((if c.options.asModule then ["import \x7b z \x7d from \"zod\";"] else [])
      ++ declared.entries.map (fun entry => Listing.exported c.options entry.name entry.body.text)
      ++ if root.declaredName?.isSome ∧ root.isForbidden = false ∧ root.isModified = false then []
        else [if c.options.asModule then Listing.exported c.options "schema" top.text else top.text])
  bodies : ∀ k entry, declared.entries[k]? = some entry →
    ∃ r : Writing.Recording c.setting c.options.maxDepth root (declared.entries.take k) entry,
      (∀ name ∈ entry.body.references, Writing.BodyRefers r.below r.node name) ∧
      ∀ name, Writing.BodyRefers r.below r.node name → name ∈ result.declarations.take k
  expression : ∀ name ∈ top.references, name ∈ result.declarations
  nodup : result.declarations.Nodup

theorem compileNode_inOrder {c : Compiler} {root : Node} {top : Code} {progress : Progress}
    {result : Result}
    (h : Writing.write c.setting c.options.maxDepth root {} = .ok (top, progress))
    (hresult : { code := Listing.text c.options top progress.declared
                   (topName root top progress.declared)
                 declarations := progress.declared.names
                 diagnostics := progress.notes } = result) :
    c.InOrder root top progress.declared result := by
  have hordered := ((Writing.write_inOrder .root).1 {} top progress h).2
  subst hresult
  refine ⟨rfl, listing_text h c.options, fun k entry hk => ?_, fun name hname => ?_, ?_⟩
  · obtain ⟨-, ⟨r⟩⟩ := hordered.get hk
    have hrefers := Writing.body_refers r.notForbidden (Writing.write_refers c.setting r.below)
    refine ⟨r, (hrefers.1 r.start entry.body r.finish r.written).1, fun name hname => ?_⟩
    have hdeclared := hname.declared r.notForbidden r.written
    rwa [Declarations.names, r.finish_declared, List.map_take] at hdeclared
  · have hrefers := ((Writing.write_refers c.setting _ root).1 {} top progress h).1
    exact (hrefers name hname).declared h
  · exact hordered.names_nodup fun earlier entry hadd => hadd.1

/-- Every compilation that succeeds has its declarations in order. -/
theorem compile_inOrder {c : Compiler} {description : Description} {result : Result}
    (h : c.compile description = .ok result) :
    ∃ root top progress, c.toNode description = .ok root ∧
      Writing.write c.setting c.options.maxDepth root {} = .ok (top, progress) ∧
      c.InOrder root top progress.declared result := by
  obtain ⟨root, hroot, h⟩ := Outcome.bind_ok.1 h
  obtain ⟨top, progress, hrun, hresult⟩ := compileNode_ok.1 h
  exact ⟨root, top, progress, Outcome.toWritten_ok.1 hroot, hrun, compileNode_inOrder hrun hresult⟩

/-- A named object with a named property that is optional. -/
theorem compile_inOrder_nested :
    let description := Description.tree (.map [(.str "type", .str "object"),
      (.str "metas", .list [.map [(.str "className", .str "Order")]]),
      (.str "keys", .map [(.str "buyer", .map [(.str "type", .str "string"),
        (.str "flags", .map [(.str "presence", .str "optional")]),
        (.str "metas", .list [.map [(.str "className", .str "Name")]])])])])
    ∃ result, Compiler.compile {} description = .ok result ∧
      result.declarations = ["Name", "Order"] ∧
      ∃ root top progress, Compiler.toNode {} description = .ok root ∧
        Writing.write (Compiler.setting {}) 64 root {} = .ok (top, progress) ∧
        Compiler.InOrder {} root top progress.declared result := by
  refine ⟨?result, ?h, ?names, compile_inOrder ?h⟩
  case h => rfl
  case names => rfl

end Compiler

end Schemata
