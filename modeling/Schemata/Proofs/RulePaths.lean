import Schemata.Proofs.NodePaths
import Schemata.Proofs.PartPaths
import Schemata.Proofs.Reached
/-!
Where errors about rules point.

A rule is reported at its place among the rules of the node that is written. That place is also its
place in the description only if no rules were put in front of those that the description lists. Two
things put rules in front: the flag for integers, and merging, which puts the rules of a property in
front of those of its branch. The description determines both (`Collects.unique`), and every error about
a rule that is not supported follows from it (`compile_unsupportedRule`).
-/

namespace Schemata

/-- A path that leads to a rule with a given name. -/
def Path.LeadsToRule (whole : Value) (path : Path) (name : String) : Prop :=
  ∃ entries, path.LeadsTo whole (.map entries) ∧ Entries.get? entries "name" = some (.str name)

/-- The rules that a description lists itself. Where no description stands, there are none. -/
def listedRules (whole : Value) (path : Path) : Checked (List Rule) :=
  match whole.at? path.steps with
  | some (.map entries) => Rule.readAll (Entries.field entries "rules") (path.key "rules")
  | _ => .ok []

/-- A description with the flag for integers. -/
def HasIntegerFlag (whole : Value) (path : Path) : Prop :=
  ∃ entries flags, path.LeadsTo whole (.map entries) ∧
    (Entries.field entries "flags").asEntries (path.key "flags") = .ok flags ∧
    flags.field "integer" = .bool true

/-- Whether the flag for integers adds a rule to those that are listed. -/
def AddsInteger (whole : Value) (path : Path) (own : List Rule) : Prop :=
  HasIntegerFlag whole path ∧ ∀ rule ∈ own, rule.name ≠ "integer"

/-- The rules that are read from a description: those listed there, and the one that the flag for
integers adds in front. -/
inductive ReadsRules (whole : Value) (path : Path) : List Rule → List Rule → Prop where
  | listed {own : List Rule} (hbase : path.base = "") (hown : listedRules whole path = .ok own)
    (hflag : ¬ AddsInteger whole path own) : ReadsRules whole path [] own
  | integer {own : List Rule} (hbase : path.base = "") (hown : listedRules whole path = .ok own)
    (hflag : AddsInteger whole path own) : ReadsRules whole path [{ name := "integer" }] own

/-- A description of alternatives without a plain member. Branches are not merged into it. -/
def IsConditionalOnly (whole : Value) (path : Path) : Prop :=
  ∃ entries : Entries, path.LeadsTo whole (.map entries) ∧
    Node.readKind entries path = .ok .alternatives ∧
    ∀ member ∈ entries.itemsAt "matches", Node.plainMember? member = none

/-- The rules of a node at a path, as they come together: those listed there, and in front of them
the rules that were put there. Only a branch has rules of another node in front, those of the node that
it is a branch of. -/
inductive Collects (whole : Value) (path : Path) : List Rule → List Rule → Prop where
  | plain {front own : List Rule} (h : ReadsRules whole path front own)
    (hbranch : ∀ node, path.IsBranchOf node → IsConditionalOnly whole node) :
    Collects whole path front own
  | merged {node : Path} {front own baseFront baseOwn : List Rule} (hbranch : path.IsBranchOf node)
    (hnode : ¬ IsConditionalOnly whole node) (hbase : ReadsRules whole node baseFront baseOwn)
    (h : ReadsRules whole path front own) :
    Collects whole path (baseFront ++ baseOwn ++ front) own

namespace ReadsRules

variable {whole : Value} {path : Path} {front own front' own' : List Rule}

theorem base (h : ReadsRules whole path front own) : path.base = "" := by
  cases h with
  | listed hbase _ _ => exact hbase
  | integer hbase _ _ => exact hbase

theorem listedRules_eq (h : ReadsRules whole path front own) : listedRules whole path = .ok own := by
  cases h with
  | listed _ hown _ => exact hown
  | integer _ hown _ => exact hown

theorem unique (h : ReadsRules whole path front own) (h' : ReadsRules whole path front' own') :
    front = front' ∧ own = own' := by
  obtain rfl : own = own' := Except.ok.inj (h.listedRules_eq.symm.trans h'.listedRules_eq)
  refine ⟨?_, rfl⟩
  cases h with
  | listed _ _ hflag =>
    cases h' with
    | listed _ _ _ => rfl
    | integer _ _ hflag' => exact absurd hflag' hflag
  | integer _ _ hflag =>
    cases h' with
    | listed _ _ hflag' => exact absurd hflag hflag'
    | integer _ _ _ => rfl

end ReadsRules

namespace Collects

variable {whole : Value} {path : Path} {front own front' own' : List Rule}

theorem readsRules (h : Collects whole path front own) : ∃ front, ReadsRules whole path front own := by
  cases h with
  | plain h _ => exact ⟨_, h⟩
  | merged _ _ _ h => exact ⟨_, h⟩

/-- A path collects rules in one way. -/
theorem unique (h : Collects whole path front own) (h' : Collects whole path front' own') :
    front = front' ∧ own = own' := by
  cases h with
  | plain h hbranch =>
    cases h' with
    | plain h' _ => exact h.unique h'
    | merged hbranch' hnode _ _ => exact absurd (hbranch _ hbranch') hnode
  | merged hbranch hnode hbase h =>
    cases h' with
    | plain _ hbranch' => exact absurd (hbranch' _ hbranch) hnode
    | merged hbranch' _ hbase' h' =>
      obtain rfl := hbranch.unique hbranch'
      obtain ⟨rfl, rfl⟩ := hbase.unique hbase'
      obtain ⟨rfl, rfl⟩ := h.unique h'
      exact ⟨rfl, rfl⟩

end Collects

/-! ## Rules in a description -/

theorem readEach_get {α : Type} {read : Value → Path → Checked α} {items : List Value} {path : Path}
    {as : List α} (h : readEach read items path = .ok as) (i : Nat) :
    (items[i]? = none ∧ as[i]? = none) ∨
      ∃ item a, items[i]? = some item ∧ as[i]? = some a ∧ read item (path.index i) = .ok a := by
  have hget := Outcome.mapM_ok_get h i
  rw [List.getElem?_zipIdx] at hget
  cases hitem : items[i]? with
  | none => simpa [hitem] using hget
  | some item => simpa [hitem] using hget

theorem readRule_name {raw : Value} {path : Path} {rule : Rule} (h : Rule.read raw path = .ok rule) :
    ∃ entries, raw = .map entries ∧ Entries.get? entries "name" = some (.str rule.name) := by
  unfold Rule.read at h
  split at h
  · rename_i entries
    split at h
    · rename_i name hname
      obtain ⟨args, -, h⟩ := Outcome.bind_ok.1 h
      cases h
      refine ⟨entries, rfl, ?_⟩
      cases hget : Entries.get? entries "name" with
      | none => simp [Entries.field, hget] at hname
      | some v => simpa [Entries.field, hget] using hname
    · cases h
  · cases h

theorem readAll_ok {raw : Value} {path : Path} {rules : List Rule}
    (h : Rule.readAll raw path = .ok rules) :
    raw = .null ∧ rules = [] ∨
      ∃ items, raw.items? = some items ∧ readEach Rule.read items path = .ok rules := by
  unfold Rule.readAll at h
  split at h
  · cases h
    exact .inl ⟨rfl, rfl⟩
  · obtain ⟨items, hitems, h⟩ := Outcome.bind_ok.1 h
    unfold Value.asItems at hitems
    split at hitems <;> cases hitems
    exact .inr ⟨items, by assumption, h⟩

/-- The rules that were read stand in the description in the same order. -/
theorem listedRules_get {whole : Value} {path : Path} {own : List Rule}
    (h : listedRules whole path = .ok own) (i : Nat) :
    (whole.at? ((path.key "rules").index i).steps = none ∧ own[i]? = none) ∨
      ∃ item rule, whole.at? ((path.key "rules").index i).steps = some item ∧
        own[i]? = some rule ∧ Rule.read item ((path.key "rules").index i) = .ok rule := by
  have hat : whole.at? ((path.key "rules").index i).steps =
      ((whole.at? path.steps).bind fun v => v.step? (.key "rules")).bind fun v =>
        v.step? (.index i) := by
    simp [Path.key, Path.index, Value.at?_append, Value.at?, Option.bind_assoc]
  rw [hat]
  unfold listedRules at h
  split at h
  · rename_i entries hentries
    simp only [hentries, Option.bind_some, Value.step?, Value.entries?]
    rcases readAll_ok h with ⟨hnull, rfl⟩ | ⟨items, hitems, hrules⟩
    · -- No rules, or null in their place: there is nothing at any index.
      left
      cases hget : Entries.get? entries "rules" with
      | none => simp
      | some raw =>
        rw [Entries.field, hget, Option.getD_some] at hnull
        simp [hnull, Value.items?]
    · have hget : Entries.get? entries "rules" = some (Entries.field entries "rules") := by
        cases hget : Entries.get? entries "rules" with
        | none => simp [Entries.field, hget, Value.items?] at hitems
        | some raw => simp [Entries.field, hget]
      have hi : ¬ (i : Int) < 0 := by omega
      simpa [hget, hitems, hi] using readEach_get hrules i
  · rename_i hno
    cases h
    left
    cases hv : whole.at? path.steps with
    | none => simp
    | some v =>
      cases v with
      | map entries => exact absurd hv (hno entries)
      | _ => simp [Value.step?, Value.entries?]

theorem leadsToRule_iff {whole : Value} {path : Path} {own : List Rule} (hbase : path.base = "")
    (h : listedRules whole path = .ok own) (i : Nat) (name : String) :
    ((path.key "rules").index i).LeadsToRule whole name ↔
      ∃ rule, own[i]? = some rule ∧ rule.name = name := by
  constructor
  · rintro ⟨entries, hleads, hname⟩
    rcases listedRules_get h i with ⟨hnone, -⟩ | ⟨item, rule, hitem, hrule, hread⟩
    · cases hleads.value.symm.trans hnone
    · cases hleads.value.symm.trans hitem
      obtain ⟨_, ⟨⟩, hget⟩ := readRule_name hread
      refine ⟨rule, hrule, ?_⟩
      simpa [hname, eq_comm] using hget
  · rintro ⟨rule, hrule, rfl⟩
    rcases listedRules_get h i with ⟨-, hnone⟩ | ⟨item, rule', hitem, hrule', hread⟩
    · simp [hnone] at hrule
    · cases hrule.symm.trans hrule'
      obtain ⟨entries, rfl, hget⟩ := readRule_name hread
      exact ⟨entries, ⟨hbase, hitem⟩, hget⟩

/-! ## Rules of the nodes that are read -/

/-- What is known of a node that was read: its rules, the places of its parts, and whether branches are
merged into it. -/
structure Node.Grounded (whole : Value) (n : Node) : Prop where
  rules : ∃ front own, ReadsRules whole n.path front own ∧ n.rules = front ++ own
  placed : n.Placed
  base : Writing.guardBase n = none ↔ IsConditionalOnly whole n.path

namespace Node

variable {whole : Value} {limit : Int} {n : Node}

theorem Reads.readsRules {child : ChildReader} {entries : Entries}
    (h : n.Reads child entries n.path) (hleads : n.path.LeadsTo whole (.map entries)) :
    ∃ front own, ReadsRules whole n.path front own ∧ n.rules = front ++ own := by
  obtain ⟨flags, own, hflags, hown, hrules⟩ := h.rules
  have hlisted : listedRules whole n.path = .ok own := by
    rw [listedRules, hleads.value]
    exact hown
  have hflag : HasIntegerFlag whole n.path ↔ flags.field "integer" = .bool true := by
    constructor
    · rintro ⟨entries', flags', hleads', hflags', hinteger⟩
      cases hleads.value.symm.trans hleads'.value
      cases hflags.symm.trans hflags'
      exact hinteger
    · exact fun hinteger => ⟨entries, flags, hleads, hflags, hinteger⟩
  rw [hrules, rulesWith]
  split
  · rename_i hinteger
    unfold Rule.withInteger
    split
    · rename_i hany
      refine ⟨[], own, .listed hleads.base hlisted ?_, rfl⟩
      rintro ⟨-, hnone⟩
      obtain ⟨rule, hrule, hname⟩ := List.any_eq_true.1 hany
      exact hnone rule hrule (by simpa using hname)
    · rename_i hnone
      refine ⟨_, own, .integer hleads.base hlisted ⟨hflag.2 hinteger, ?_⟩, rfl⟩
      simpa using hnone
  · rename_i hinteger
    exact ⟨[], own, .listed hleads.base hlisted fun hadds => hinteger (hflag.1 hadds.1), rfl⟩

theorem Reads.guardBase_iff {child : ChildReader} {entries : Entries}
    (h : n.Reads child entries n.path) (hleads : n.path.LeadsTo whole (.map entries)) :
    Writing.guardBase n = none ↔ IsConditionalOnly whole n.path := by
  have hbase : Writing.guardBase n = none ↔ n.kind = .alternatives ∧ n.members = [] := by
    unfold Writing.guardBase
    split <;> simp_all
  have hmembers : n.members = [] ↔
      ∀ member ∈ entries.itemsAt "matches", plainMember? member = none := by
    rw [← List.filterMap_eq_nil_iff, ← List.length_eq_zero_iff, ← h.origin.members.length_eq,
      List.length_eq_zero_iff]
  rw [hbase, hmembers]
  constructor
  · rintro ⟨hkind, hplain⟩
    exact ⟨entries, hleads, hkind ▸ h.kind, hplain⟩
  · rintro ⟨entries', hleads', hkind, hplain⟩
    cases hleads.value.symm.trans hleads'.value
    exact ⟨Except.ok.inj (h.kind.symm.trans hkind), hplain⟩

theorem ReadFrom.grounded (h : n.ReadFrom limit whole) : n.Grounded whole := by
  obtain ⟨levels, entries, hleads, hread⟩ := h
  cases levels with
  | zero => cases hread
  | succ levels =>
    obtain ⟨_, ⟨⟩, hreads⟩ := readLevel_ok hread
    exact ⟨hreads.readsRules hleads, hreads.placed (read_keepsPath limit levels),
      hreads.guardBase_iff hleads⟩

/-- A node that compares with values has neither rules nor parts, and no description stands at its
path. -/
theorem StandsForValues.grounded (h : n.StandsForValues whole) : n.Grounded whole := by
  obtain ⟨hcontent, hbranches, hconditions⟩ := h.compares.parts
  have hlisted : listedRules whole n.path = .ok [] := by
    unfold listedRules
    split
    · rename_i hmap
      exact absurd hmap (h.value _)
    · rfl
  have hflag : ¬ AddsInteger whole n.path [] := by
    rintro ⟨⟨entries, _, hleads, -⟩, -⟩
    exact h.value _ hleads.value
  have hrules : n.rules = [] ∧ n.kind ≠ .alternatives := by
    cases h.compares <;> exact ⟨rfl, nofun⟩
  refine ⟨⟨[], [], .listed h.base hlisted hflag, hrules.1⟩, ?_, ?_⟩
  · constructor <;> simp [hcontent, hbranches, hconditions]
  · constructor
    · intro hbase
      simp [Writing.guardBase, hrules.2] at hbase
    · rintro ⟨entries, hleads, -⟩
      exact absurd hleads.value (h.value _)

/-- In a description that was read, all this is known of every node. -/
theorem all_grounded (h : n.All (Sound whole (ReadFrom limit whole))) (hn : n.Grounded whole) :
    n.All (Grounded whole) := by
  induction h with
  | intro sound _ _ _ ihcontent ihbranches ihconditions =>
    refine .intro hn (fun m hm => ?_) (fun m hm => ?_) fun m hm => ?_
    · exact ihcontent m hm (sound.content m hm).grounded
    · exact ihbranches m hm (sound.branches m hm).grounded
    · refine ihconditions m hm ?_
      rcases sound.conditions m hm with h | h
      · exact h.grounded
      · exact h.grounded

/-! ## Rules of the nodes that are written -/

/-- The rules of a node are those collected at its path. A branch that is forbidden loses them. -/
def CollectsRules (whole : Value) (n : Node) : Prop :=
  (∃ front own, Collects whole n.path front own ∧ n.rules = front ++ own) ∨ n.rules = []

/-- The content of a node is as it was read. -/
def GroundedContent (whole : Value) (n : Node) : Prop :=
  ∀ m ∈ n.content, ¬ m.path.EndsInBranch ∧ m.All (Grounded whole)

theorem Grounded.collectsRules (h : n.Grounded whole) (hn : ¬ n.path.EndsInBranch) :
    n.CollectsRules whole := by
  obtain ⟨front, own, hreads, hrules⟩ := h.rules
  exact .inl ⟨front, own, .plain hreads fun _ hbranch => absurd hbranch.endsInBranch hn, hrules⟩

theorem groundedContent (h : n.All (Grounded whole)) : n.GroundedContent whole :=
  fun m hm => ⟨h.self.placed.content m hm, h.content m hm⟩

end Node

namespace Writing

variable {whole : Value}

/-- A branch is written with its own rules if its node has nothing to merge it into. -/
theorem collectsRules_branch {k m : Node} (hk : k.Grounded whole) (hbase : guardBase k = none)
    (hm : m ∈ k.branches) (hread : m.Grounded whole) : m.CollectsRules whole := by
  obtain ⟨front, own, hreads, hrules⟩ := hread.rules
  have hbranch := hk.placed.branches m hm
  refine .inl ⟨front, own, .plain hreads fun node hnode => ?_, hrules⟩
  rw [hnode.unique hbranch]
  exact hk.base.1 hbase

/-- A branch that is merged has the rules of its node in front of its own. -/
theorem collectsRules_merged {k base branch m : Node} (hk : k.Grounded whole)
    (hbase : guardBase k = some base) (hbranch : branch ∈ k.branches) (hread : branch.Grounded whole)
    (h : base.merge branch = .ok m) : m.CollectsRules whole := by
  have hnode : ¬ IsConditionalOnly whole k.path := by
    rw [← hk.base, hbase]
    simp
  obtain rfl := guardBase_eq hbase
  rcases Node.merge_ok h with ⟨-, rfl⟩ | ⟨-, -, kind, -, rfl⟩
  · exact .inr rfl
  · obtain ⟨baseFront, baseOwn, hbaseReads, hbaseRules⟩ := hk.rules
    obtain ⟨front, own, hreads, hrules⟩ := hread.rules
    have hplace := hk.placed.branches branch hbranch
    refine .inl ⟨_, own, .merged hplace hnode hbaseReads hreads, ?_⟩
    simp only [hbaseRules, hrules, List.append_assoc]

/-- What is known of the rules of a node and of its content passes to the nodes below. -/
theorem collectsRules_of_mem_children {n m : Node} (hn : n.GroundedContent whole)
    (hm : m ∈ children n) : m.CollectsRules whole ∧ m.GroundedContent whole := by
  cases below_of_mem_children hm with
  | content hm =>
    obtain ⟨hpath, hall⟩ := hn m hm
    exact ⟨hall.self.collectsRules hpath, Node.groundedContent hall⟩
  | condition hk hm =>
    have hk := (hn _ hk).2
    have hall := hk.conditions m hm
    exact ⟨hall.self.collectsRules (hk.self.placed.conditions m hm), Node.groundedContent hall⟩
  | branch hk hbase hm =>
    have hk := (hn _ hk).2
    have hall := hk.branches m hm
    exact ⟨collectsRules_branch hk.self hbase hm hall.self, Node.groundedContent hall⟩
  | base hk hbase =>
    obtain ⟨hpath, hall⟩ := hn _ hk
    obtain rfl := guardBase_eq hbase
    exact ⟨hall.self.collectsRules hpath, fun x hx => Node.groundedContent hall x hx⟩
  | merged hk hbase hbranch hmerge =>
    have hk := (hn _ hk).2
    have hall := hk.branches _ hbranch
    refine ⟨collectsRules_merged hk.self hbase hbranch hall.self hmerge, fun x hx => ?_⟩
    rcases Node.merge_content hmerge hx with hx | hx
    · exact Node.groundedContent hk x ((guardBase_content hbase).1 ▸ hx)
    · exact Node.groundedContent hall x hx

/-- An error about a rule names the rule at its place among the rules that are collected. -/
def ReportsRule (whole : Value) (name : String) (path : Path) : Prop :=
  ∃ p front own i, path = (Path.key p "rules").index i ∧ Collects whole p front own ∧
    ∃ rule, (front ++ own)[i]? = some rule ∧ rule.name = name

/-- A contract for steps that report rules at their place. -/
def reportsRules (whole : Value) : Contract where
  change := fun _ _ => True
  failure := fun failure => ∀ kind name path,
    failure = .rejected ⟨.unsupportedRule kind name, path⟩ → ReportsRule whole name path
  refl := fun _ => trivial
  trans := fun _ _ => trivial
  note := fun _ _ => trivial
  refusal := by
    rintro cause path h kind name path' ⟨⟩
    cases h

theorem reportsRules_allows {setting : Setting} {n : Node} (hn : n.CollectsRules whole) :
    (reportsRules whole).Allows setting n := by
  constructor
  · rintro target failure h kind name path rfl
    obtain ⟨rule, i, hi, h⟩ := allRuleCalls_error_at (applyRules_error h)
    obtain h | ⟨e, hrefusal, h⟩ | ⟨d, form, -, h, -⟩ := ruleCalls_error h
    · cases h
      rcases hn with ⟨front, own, hcollects, hrules⟩ | hnone
      · exact ⟨n.path, front, own, i, rfl, hcollects, rule, hrules ▸ hi, rfl⟩
      · simp [hnone] at hi
    · cases h
      cases hrefusal
    · cases h
  · rintro v - failure h kind name path rfl
    unfold Value.toLiteral at h
    split at h <;> cases h
  · rintro - guard - - kind name path ⟨⟩

theorem write_reportsRules (setting : Setting) {levels : Nat} {n : Node}
    (h : n.CollectsRules whole) (hn : n.GroundedContent whole) :
    (reportsRules whole).Holds (fun _ => True) (write setting levels n) := by
  refine write_holds (I := fun _ n => n.CollectsRules whole ∧ n.GroundedContent whole)
    ?_ ?_ ?_ ?_ ⟨h, hn⟩
  · rintro n - kind name path ⟨⟩
  · exact fun l n m hn hm => collectsRules_of_mem_children hn.2 hm
  · exact fun l n hn _ _ => reportsRules_allows hn.1
  · exact fun _ _ => trivial

end Writing

namespace Compiler

/-- An error about a rule that is not supported is reported at a place among the rules that the
description collects at the node. The path leads to a rule of that name exactly if the description
lists one at that place, and always if nothing stands in front. A rule that the description lists
stands as many places earlier as rules were put in front of it. -/
theorem compile_unsupportedRule (c : Compiler) {raw : Value} (hraw : raw.hasDistinctNames = true)
    {kind : Kind} {name : String} {path : Path}
    (h : c.compile (.tree raw) = .error (.rejected ⟨.unsupportedRule kind name, path⟩)) :
    ∃ p front own i, path = (Path.key p "rules").index i ∧
      (∀ front' own', Collects raw p front' own' ↔ front' = front ∧ own' = own) ∧
      (∃ rule, (front ++ own)[i]? = some rule ∧ rule.name = name) ∧
      (path.LeadsToRule raw name ↔ ∃ rule, own[i]? = some rule ∧ rule.name = name) ∧
      (front.length ≤ i → ((p.key "rules").index (i - front.length)).LeadsToRule raw name) ∧
      (front = [] → path.LeadsToRule raw name) := by
  have hpoints := Node.read_points hraw c.options.maxDepth (c.options.maxDepth : Int).toNat
    (Path.leadsTo_root raw)
  cases hread : Node.ofValue c.options.maxDepth raw with
  | error e =>
    rw [compile_of_unread hread] at h
    unfold Failure.ofError at h
    split at h
    · cases h
      cases (hpoints.error _ hread).2
    · cases h
  | ok root =>
    rw [compile_of_read hread] at h
    obtain ⟨hpath, hroot, hall⟩ := hpoints.ok root hread
    have hgrounded := Node.all_grounded hall hroot.grounded
    have hstart : ¬ root.path.EndsInBranch := by
      rw [hpath]
      rintro ⟨list, i, heq | heq⟩
      · simpa [Path.root, Path.key] using congrArg Path.steps heq
      · simpa [Path.root, Path.key] using congrArg Path.steps heq
    obtain ⟨p, front, own, i, rfl, hcollects, rule, hrule, rfl⟩ :=
      (Writing.write_reportsRules c.setting (hgrounded.self.collectsRules hstart)
        (Node.groundedContent hgrounded)).2 {} _ (compileNode_error.1 h) _ _ _ rfl
    obtain ⟨_, hreads⟩ := hcollects.readsRules
    have hlisted := leadsToRule_iff hreads.base hreads.listedRules_eq
    have hbehind : front.length ≤ i →
        ((p.key "rules").index (i - front.length)).LeadsToRule raw rule.name := by
      intro hi
      rw [hlisted, ← List.getElem?_append_right hi]
      exact ⟨rule, hrule, rfl⟩
    refine ⟨p, front, own, i, rfl, fun front' own' => ⟨fun h' => h'.unique hcollects, ?_⟩,
      ⟨rule, hrule, rfl⟩, hlisted i rule.name, hbehind, ?_⟩
    · rintro ⟨rfl, rfl⟩
      exact hcollects
    · rintro rfl
      exact hbehind (Nat.zero_le i)

/-- A branch with one rule, merged into a property with one rule. -/
theorem compile_unsupportedRule_merged :
    let text (rule : String) (rest : Entries) : Value :=
      .map ([(.str "type", .str "string"), (.str "rules", .list [.map [(.str "name", .str rule)]])]
        ++ rest)
    let raw : Value := .map [(.str "type", .str "object"), (.str "keys", .map
      [(.str "a", text "trim" [(.str "whens", .list [.map
        [(.str "ref", .str "b"), (.str "is", .int 1), (.str "then", text "creditCard" [])]])])])]
    let path : Path := ⟨"", [.key "keys", .key "a", .key "whens", .index 0, .key "then",
      .key "rules", .index 1]⟩
    compile {} (.tree raw) = .error (.rejected ⟨.unsupportedRule .string "creditCard", path⟩) ∧
      ∃ p front own i, path = (Path.key p "rules").index i ∧
        (∀ front' own', Collects raw p front' own' ↔ front' = front ∧ own' = own) ∧
        (∃ rule, (front ++ own)[i]? = some rule ∧ rule.name = "creditCard") ∧
        (path.LeadsToRule raw "creditCard" ↔
          ∃ rule, own[i]? = some rule ∧ rule.name = "creditCard") ∧
        (front.length ≤ i →
          ((p.key "rules").index (i - front.length)).LeadsToRule raw "creditCard") ∧
        (front = [] → path.LeadsToRule raw "creditCard") :=
  ⟨rfl, compile_unsupportedRule {} (by decide) (by rfl)⟩

/-- With the flag for integers, the only rule listed is reported in the second place. -/
theorem compile_unsupportedRule_integer :
    let raw : Value := .map [(.str "type", .str "number"),
      (.str "flags", .map [(.str "integer", .bool true)]),
      (.str "rules", .list [.map [(.str "name", .str "foo")]])]
    let path : Path := ⟨"", [.key "rules", .index 1]⟩
    compile {} (.tree raw) = .error (.rejected ⟨.unsupportedRule .number "foo", path⟩) ∧
      ¬ path.LeadsToRule raw "foo" := by
  refine ⟨rfl, ?_⟩
  rintro ⟨entries, hleads, -⟩
  cases hleads.value

end Compiler

end Schemata
