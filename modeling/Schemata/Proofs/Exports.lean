import Schemata.Proofs.DeclarationOrder
import Schemata.Proofs.Fragments
/-!
The names that a module binds.

A module brings in one name, exports a constant for every declaration, and exports the expression for
the whole description under a name of its own unless that expression is a declared name. Declarations
are only compared with each other, and as they were given: the name that is brought in and the name
of the expression may be declared too, and a name that ends in a line break is written like the one
without it. These are the only ways in which a module binds a name twice.

Component: the listing of the code as a module, `Listing.text`. Main results:
- `blocks_boundNames` — every block of a module binds one name;
- `boundNames_nodup_iff` — when the names that a module binds are distinct;
- `compile_binds` — both for every module that is compiled.
-/

namespace Schemata

namespace Listing

/-! ## Blocks -/

/-- What stands before the name that a block binds. -/
def binders : List String := ["import \x7b ", "export const "]

/-- The name that a block binds: the word behind one of the starts. -/
def boundName? (block : String) : Option String :=
  (binders.findSome? fun start => start.toList.isPrefixOf? block.toList).map Text.word

theorem boundName?_importLine : boundName? importLine = some "z" := by decide

theorem boundName?_constant {options : Options} {name : String} (body : String)
    (h : Text.isIdentifier name = true) :
    boundName? (constant options name body) = some (Text.word name.toList) := by
  obtain ⟨tail, htail⟩ : ∃ tail, constant options name body =
      "export const " ++ name ++ " = " ++ body ++ ";" ++ tail := ⟨_, constant_eq _ _ _⟩
  obtain ⟨rest, hrest⟩ : ∃ rest, (constant options name body).toList =
      "export const ".toList ++ (name.toList ++ ' ' :: rest) := by
    refine ⟨"= ".toList ++ (body ++ ";" ++ tail).toList, ?_⟩
    simp [htail]
  have himport : "import \x7b ".toList.isPrefixOf? (constant options name body).toList = none := by
    rw [hrest]
    rfl
  have hexport : "export const ".toList.isPrefixOf? (constant options name body).toList =
      some (name.toList ++ ' ' :: rest) := by
    rw [hrest, List.isPrefixOf?_eq_some_iff_append_eq]
  rw [boundName?, binders, List.findSome?_cons, himport, List.findSome?_cons, hexport]
  exact congrArg some (Text.word_isIdentifier_append h (by decide) rest)

theorem boundName?_topBlock {options : Options} (hmodule : options.asModule = true) (top : Code)
    (name? : Option String) : (topBlock options top name?).map boundName? =
      (if name?.isNone then [exportName] else []).map some := by
  cases name? with
  | some name => rfl
  | none =>
    have hconstant : boundName? (constant options exportName top.text) =
        some (Text.word exportName.toList) := boundName?_constant top.text (by decide)
    rw [topBlock, if_pos hmodule, List.map_singleton, hconstant]
    rfl

end Listing

/-! ## Modules -/

/-- Whether a module exports the expression for the whole description: that is so unless the
description has a name and neither is forbidden nor modified. -/
def Node.isExported (root : Node) : Bool :=
  !(root.declaredName?.isSome && !root.isForbidden && !root.isModified)

namespace Compiler

variable {c : Compiler} {root : Node} {top : Code} {progress : Progress}

/-- The declarations made for a description that was read have identifiers for names. -/
theorem declared_isIdentifier {limit : Int} {raw : Value}
    (hroot : Node.ofValue limit raw = .ok root)
    (h : Writing.write c.setting c.options.maxDepth root {} = .ok (top, progress)) :
    ∀ entry ∈ progress.declared.entries, Text.isIdentifier entry.name = true := by
  have hordered := ((Writing.write_inOrder .root).1 {} top progress h).2
  intro entry hentry
  obtain ⟨k, hk⟩ := List.mem_iff_getElem?.1 hentry
  obtain ⟨-, ⟨r⟩⟩ := hordered.get hk
  have hnamed := r.reached.wellNamed (Node.read_wellNamed hroot)
  exact hnamed.self entry.name (Node.declaredName?_eq_some.1 r.declaredName).1

/-- Every block of a module binds one name. -/
theorem blocks_boundNames (hmodule : c.options.asModule = true)
    (hnames : ∀ entry ∈ progress.declared.entries, Text.isIdentifier entry.name = true)
    (h : Writing.write c.setting c.options.maxDepth root {} = .ok (top, progress)) :
    (Listing.blocks c.options top progress.declared (topName root top progress.declared)).map
        Listing.boundName? =
      ("z" :: (progress.declared.names.map (fun name => Text.word name.toList)
        ++ if root.isExported then [Listing.exportName] else [])).map some := by
  have hdeclared : (progress.declared.items.map fun item =>
      Listing.constant c.options item.1 item.2).map Listing.boundName? =
      (progress.declared.names.map fun name => Text.word name.toList).map some := by
    simp only [Declarations.items, Declarations.names, List.map_map]
    exact List.map_congr_left fun entry hentry => Listing.boundName?_constant _ (hnames entry hentry)
  have hexported : (topName root top progress.declared).isNone = root.isExported := by
    rw [← Option.not_isSome, Bool.not_eq_eq_eq_not, Bool.eq_iff_iff, topName_isSome_iff h]
    simp [Node.isExported, and_assoc]
  have htop := Listing.boundName?_topBlock hmodule top (topName root top progress.declared)
  rw [hexported] at htop
  rw [Listing.blocks, if_pos hmodule, List.map_append, List.map_append, hdeclared, htop]
  simp [Listing.boundName?_importLine]

/-- When the names that a module binds are distinct. -/
theorem boundNames_nodup_iff {names : List String} (exported : Bool) (hnames : names.Nodup)
    (h : ∀ name ∈ names, Text.isIdentifier name = true) :
    ("z" :: (names.map (fun name => Text.word name.toList)
        ++ if exported then [Listing.exportName] else [])).Nodup ↔
      ("z" ∉ names ∧ "z\n" ∉ names) ∧
        (exported = true → "schema" ∉ names ∧ "schema\n" ∉ names) ∧
        ∀ name ∈ names, name ++ "\n" ∉ names := by
  have himported : "z" ∈ names.map (fun name => Text.word name.toList) ↔
      "z" ∈ names ∨ "z\n" ∈ names := Text.mem_words_iff h (by decide)
  have hschema : "schema" ∈ names.map (fun name => Text.word name.toList) ↔
      "schema" ∈ names ∨ "schema\n" ∈ names := Text.mem_words_iff h (by decide)
  have hwords := Text.words_nodup_iff hnames h
  rw [List.nodup_cons, List.mem_append, himported]
  cases exported with
  | false =>
    rw [if_neg Bool.false_ne_true, List.append_nil, hwords]
    simp
  | true =>
    rw [if_pos rfl, ← List.concat_eq_append, List.nodup_concat, Listing.exportName, hschema, hwords]
    simp [and_assoc]

/-- The names that the blocks of a module bind. Two of them are the same exactly if a declaration has
the name that is brought in, or the name that the expression is exported under, or if two declarations
only differ in a line break at the end of their names. -/
structure Binds (root : Node) (blocks : List String) (result : Result) : Prop where
  code : result.code = Text.join "\n\n" blocks
  names : blocks.map Listing.boundName? =
    ("z" :: (result.declarations.map (fun name => Text.word name.toList)
      ++ if root.isExported then [Listing.exportName] else [])).map some
  nodup_iff : (blocks.map Listing.boundName?).Nodup ↔
    ("z" ∉ result.declarations ∧ "z\n" ∉ result.declarations) ∧
      (root.isExported = true →
        "schema" ∉ result.declarations ∧ "schema\n" ∉ result.declarations) ∧
      ∀ name ∈ result.declarations, name ++ "\n" ∉ result.declarations

/-- Every module that is compiled from a description binds its names in this way. -/
theorem compile_binds {raw : Value} {result : Result} (hmodule : c.options.asModule = true)
    (h : c.compile (.tree raw) = .ok result) :
    ∃ root blocks, Node.ofValue c.options.maxDepth raw = .ok root ∧ Binds root blocks result := by
  obtain ⟨root, hroot, hnode⟩ := Outcome.bind_ok.1 h
  replace hroot : Node.ofValue c.options.maxDepth raw = .ok root := Outcome.toWritten_ok.1 hroot
  obtain ⟨top, progress, hrun, rfl⟩ := compileNode_ok.1 hnode
  have hentries := declared_isIdentifier hroot hrun
  have hnames : ∀ name ∈ progress.declared.names, Text.isIdentifier name = true :=
    List.forall_mem_map.2 hentries
  have hbound := blocks_boundNames hmodule hentries hrun
  refine ⟨root, _, hroot, rfl, hbound, ?_⟩
  rw [hbound, List.nodup_map_iff fun _ _ => Option.some.inj]
  exact boundNames_nodup_iff root.isExported (compileNode_inOrder hrun rfl).nodup hnames

/-- A named list of two named types, of which the first is optional. -/
theorem compile_binds_named :
    let options : Options := { asModule := true }
    let description := Value.map [(.str "type", .str "array"),
      (.str "metas", .list [.map [(.str "className", .str "Tags")]]),
      (.str "items", .list [
        .map [(.str "type", .str "string"),
          (.str "metas", .list [.map [(.str "className", .str "Tag")]]),
          (.str "flags", .map [(.str "presence", .str "optional")])],
        .map [(.str "type", .str "number"), (.str "metadata", .map [(.str "className", .str "Id")])]])]
    options.asModule = true ∧
      ∃ result, Compiler.compile { options := options } (.tree description) = .ok result ∧
        result.declarations = ["Tag", "Id", "Tags"] ∧
        ∃ root blocks, Node.ofValue 64 description = .ok root ∧ Binds root blocks result := by
  refine ⟨rfl, ?result, ?h, ?names, compile_binds rfl ?h⟩
  case h => rfl
  case names => rfl

/-- A property that is named like the exported expression: the module exports two constants of one
name. -/
theorem compile_exports_twice :
    let description := Description.tree (.map [(.str "type", .str "object"),
      (.str "keys", .map [(.str "a", .map [(.str "type", .str "string"),
        (.str "metas", .list [.map [(.str "className", .str "schema")]])])])])
    let blocks := ["import \x7b z \x7d from \"zod\";", "export const schema = z.string();",
      "export const schema = z.object(\x7b\n  a: schema.optional(),\n\x7d);"]
    (Compiler.compile { options := { asModule := true } } description).map Result.code =
        .ok (Text.join "\n\n" blocks) ∧
      ¬ (blocks.map Listing.boundName?).Nodup := by
  refine ⟨rfl, ?_⟩
  decide

end Compiler

end Schemata
