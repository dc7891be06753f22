import Schemata.Proofs.NodeSpelling
import Schemata.Proofs.Positions
/-!
Pairs of spellings.

Ten things can be said in two ways in a description. `Spelling` lists the pairs, each with what the two
spellings have in common and what they differ in. Both spellings of a pair are read alike, with any
reader for the level below whose outcomes without paths do not depend on the path.

Component: the reader of nodes and conditionals, on both members of each pair. Main results:
- `partsLike_of_said` — nodes whose flags differ in spelling only;
- `readRules_integer` — the flag for integers is read like the rule in front.
-/

namespace Schemata

open Checked

/-! ## Pairs of spellings -/

/-- Whether a value is a description that stands for itself among alternatives. -/
def Value.isBare : Value → Bool
  | .map entries => Entries.has entries "type" && !Entries.has entries "schema"
  | _ => false

/-- Whether a value is a rule with a given name. -/
def Value.isRule (name : String) : Value → Bool
  | .map entries => (Entries.field entries "name").isText name
  | _ => false

/-- The object that says the same as the text of a reference. -/
inductive Reference.ObjectForm : Reference → Entries → Prop where
  | sibling {segments : List String} {raw : Entries}
      (hpath : (raw.field "path").items? = some (segments.map .str))
      (hancestor : raw.get? "ancestor" = none) (htype : raw.get? "type" = none) :
      ObjectForm ⟨segments, 1, .value⟩ raw
  | ancestor {segments : List String} {raw : Entries} {levels : Int}
      (hpath : (raw.field "path").items? = some (segments.map .str))
      (hancestor : raw.get? "ancestor" = some (.int levels)) (htype : raw.get? "type" = none) :
      ObjectForm ⟨segments, levels, .value⟩ raw
  | root {segments : List String} {raw : Entries}
      (hpath : (raw.field "path").items? = some (segments.map .str))
      (hancestor : raw.get? "ancestor" = some (.str "root")) (htype : raw.get? "type" = none) :
      ObjectForm ⟨segments, 0, .root⟩ raw
  | context {segments : List String} {raw : Entries}
      (hpath : (raw.field "path").items? = some (segments.map .str))
      (hancestor : raw.get? "ancestor" = none) (htype : raw.get? "type" = some (.str "global")) :
      ObjectForm ⟨segments, 0, .context⟩ raw
  | inner {segments : List String} {raw : Entries}
      (hpath : (raw.field "path").items? = some (segments.map .str))
      (hancestor : raw.get? "ancestor" = none) (htype : raw.get? "type" = some (.str "local")) :
      ObjectForm ⟨segments, 0, .inner⟩ raw

inductive Spelling : Position → Value → Value → Prop where
  /-- A member of alternatives under `schema`, and the member alone. -/
  | schema {raw : Entries} {member : Value} (h : raw.get? "schema" = some member)
      (hbare : member.isBare = true) : Spelling .member (.map raw) member
  /-- A conditional, and a switch with one case. The last branch stands beside the switch or in the
  case. -/
  | switch {raw raw' case : Entries} {switch : Value}
      (h : Entries.SameBeside ["is", "not", "then", "otherwise", "switch"] raw raw')
      (hnone : raw.get? "switch" = none) (hswitch : raw'.get? "switch" = some switch)
      (hitems : switch.items? = some [.map case])
      (hcase : ∀ name ∈ ["is", "not", "then"], raw.get? name = case.get? name)
      (hotherwise :
        (raw.field "otherwise" = raw'.field "otherwise" ∧ case.field "otherwise" = .null) ∨
        (raw.field "otherwise" = case.field "otherwise" ∧ raw'.field "otherwise" = .null)) :
      Spelling .guard (.map raw) (.map raw')
  /-- A negated test under `not`, and under `is` beside a true `not`. -/
  | negation {position : Position} (hposition : position = .guard ∨ position = .case)
      {raw raw' : Entries} {test : Value} (h : Entries.SameBeside ["is", "not"] raw raw') (his : raw.get? "is" = none)
      (hnot : raw.get? "not" = some test) (his' : raw'.get? "is" = some test)
      (hnot' : raw'.get? "not" = some (.bool true)) : Spelling position (.map raw) (.map raw')
  /-- Values to allow where only listed values are accepted, and values to list. -/
  | only {raw raw' flags flags' : Entries} {valids allow : List Value}
      (h : Entries.SameBeside ["flags", "valids", "allow"] raw raw')
      (hflags : (raw.field "flags").object? = some flags)
      (hflags' : (raw'.field "flags").object? = some flags')
      (hsame : Entries.SameBeside ["only"] flags flags')
      (honly : (flags.field "only").truthy = true)
      (hvalids : (raw.field "valids").listed? = some valids)
      (hallow : (raw.field "allow").listed? = some allow)
      (hvalids' : (raw'.field "valids").listed? = some (valids ++ allow))
      (hallow' : (raw'.field "allow").listed? = some []) : Spelling .node (.map raw) (.map raw')
  /-- Values that are not accepted, under one or the other key. -/
  | invalid {raw raw' : Entries} {invalids invalid : List Value}
      (h : Entries.SameBeside ["invalids", "invalid"] raw raw')
      (hinvalids : (raw.field "invalids").listed? = some invalids)
      (hinvalid : (raw.field "invalid").listed? = some invalid)
      (hinvalids' : (raw'.field "invalids").listed? = some (invalids ++ invalid))
      (hinvalid' : (raw'.field "invalid").listed? = some []) : Spelling .node (.map raw) (.map raw')
  /-- The arguments of a rule as an object, and as the list of its values. -/
  | arguments {raw raw' args : Entries} (h : Entries.SameBeside ["args"] raw raw')
      (hargs : raw.field "args" = .map args)
      (hargs' : (raw'.field "args").listed? = some (args.map Prod.snd)) :
      Spelling .rule (.map raw) (.map raw')
  /-- Two flags that leave a value out of the result. -/
  | strip {raw raw' flags flags' : Entries} (h : Entries.SameBeside ["flags"] raw raw')
      (hflags : (raw.field "flags").object? = some flags)
      (hflags' : (raw'.field "flags").object? = some flags')
      (hsame : Entries.SameBeside ["result", "strip"] flags flags')
      (hresult : (flags.field "result").isText "strip" = true)
      (hstrip : flags.field "strip" = .null ∨ ∃ b, flags.field "strip" = .bool b)
      (hstrip' : flags'.field "strip" = .bool true) : Spelling .node (.map raw) (.map raw')
  /-- A flag that asks for an integer, and a rule in front of all others that does. -/
  | integer {raw raw' flags flags' rule : Entries} {rules : List Value}
      (h : Entries.SameBeside ["flags", "rules"] raw raw')
      (hflags : (raw.field "flags").object? = some flags)
      (hflags' : (raw'.field "flags").object? = some flags')
      (hsame : Entries.SameBeside ["integer"] flags flags')
      (hinteger : flags.field "integer" = .bool true)
      (hrules : (raw.field "rules").listed? = some rules)
      (hnone : ∀ rule ∈ rules, rule.isRule "integer" = false)
      (hrules' : (raw'.field "rules").listed? = some (.map rule :: rules))
      (hname : rule.field "name" = .str "integer")
      (hargs : (rule.field "args").listed? = some [] ∨ rule.field "args" = .map []) :
      Spelling .node (.map raw) (.map raw')
  /-- The only entry of `metas`, and the same entry as `metadata`. -/
  | metadata {raw raw' : Entries} {entry : Value}
      (h : Entries.SameBeside ["metas", "metadata"] raw raw')
      (hmetas : (raw.field "metas").items? = some [entry]) (hnone : raw.field "metadata" = .null)
      (hmetas' : (raw'.field "metas").listed? = some []) (hmetadata' : raw'.field "metadata" = entry) :
      Spelling .node (.map raw) (.map raw')
  /-- The text of a reference, and its object. -/
  | reference {key : String} {r : Reference} {raw : Entries}
      (h : Reference.ofChars? (Reference.withoutTag key).toList = some r) (hform : r.ObjectForm raw) :
      Spelling .reference (.str key) (.map raw)

/-! ## The pairs are read alike -/

namespace Spelling

section Reading
variable {child : ChildReader}

theorem readMatch_schema {raw : Entries} {member : Value} (h : raw.get? "schema" = some member)
    (path : Path) : Node.readMatch child (.map raw) path = (do
      let node ← child member (path.key "schema")
      return .inl node) := by
  simp only [Node.readMatch, h]

theorem readMatch_bare {v : Value} (h : v.isBare = true) (path : Path) :
    Node.readMatch child v path = (do
      let node ← child v path
      return .inl node) := by
  cases v with
  | map entries =>
    simp only [Value.isBare, Bool.and_eq_true, Bool.not_eq_true', Entries.has,
      Option.isSome_eq_false_iff, Option.isNone_iff_eq_none] at h
    simp only [Node.readMatch, Entries.has, h.1, h.2, if_true]
  | _ => cases h

theorem readMatch_guard {raw : Entries} (htype : raw.get? "type" = none)
    (hschema : raw.get? "schema" = none) (path : Path) :
    Node.readMatch child (.map raw) path = (do
      let guard ← Guard.read child (.map raw) path
      return .inr guard) := by
  simp [Node.readMatch, Entries.has, htype, hschema]

theorem plainMember_like {v v' : Value} (h : NodeLike child v v') (path path' : Path) :
    (do let node ← child v path
        return .inl node : Checked (Node ⊕ Guard Node)).withoutPaths eraseMember =
      (do let node ← child v' path'
          return .inl node : Checked (Node ⊕ Guard Node)).withoutPaths eraseMember :=
  withoutPaths_bind (h path path') fun _ _ hnode => withoutPaths_ok (congrArg Sum.inl hnode)

variable (hsteady : ∀ v, NodeLike child v v)
include hsteady

theorem memberLike_schema {raw : Entries} {member : Value} (h : raw.get? "schema" = some member)
    (hbare : member.isBare = true) : MemberLike child (.map raw) member := by
  intro path path'
  rw [readMatch_schema h, readMatch_bare hbare]
  exact plainMember_like (hsteady member) _ _

theorem guardLike_negation {raw raw' : Entries} {test : Value}
    (h : Entries.SameBeside ["is", "not"] raw raw') (his : raw.get? "is" = none)
    (hnot : raw.get? "not" = some test) (his' : raw'.get? "is" = some test)
    (hnot' : raw'.get? "not" = some (.bool true)) : GuardLike child (.map raw) (.map raw') := by
  have htest := Case.sameTest_of_negation hsteady his hnot his' hnot'
  have hotherwise : BranchLike child (raw.field "otherwise") (raw'.field "otherwise") := by
    rw [h.field (by decide)]
    exact branchLike_self hsteady _
  refine Guard.read_like (readReference_of_eq (h "ref" (by decide)) (h "referenceKey" (by decide))) ?_
  cases hswitch : raw.get? "switch" with
  | none =>
    refine Guard.sameArms_of_case hswitch ((h "switch" (by decide)).symm.trans hswitch) htest ?_ hotherwise
    rw [h.field (by decide)]
    exact branchLike_self hsteady _
  | some switch =>
    exact Guard.sameArms_of_switch (switchCaseLike_self hsteady) hswitch
      ((h "switch" (by decide)).symm.trans hswitch) (.inl rfl) hotherwise

theorem switchCaseLike_negation {raw raw' : Entries} {test : Value}
    (h : Entries.SameBeside ["is", "not"] raw raw') (his : raw.get? "is" = none)
    (hnot : raw.get? "not" = some test) (his' : raw'.get? "is" = some test)
    (hnot' : raw'.get? "not" = some (.bool true)) :
    Guard.SwitchCaseLike child (.map raw) (.map raw') := by
  refine Guard.switchCaseLike_map (Case.sameTest_of_negation hsteady his hnot his' hnot') ?_ ?_
  · rw [h.field (by decide)]
    exact branchLike_self hsteady _
  · rw [h.field (by decide)]
    exact branchLike_self hsteady _

omit hsteady in
theorem readArguments_of_listed? {raw : Value} {args : List Value} (h : raw.listed? = some args)
    (path : Path) : Rule.readArguments raw path = .ok args := by
  cases raw <;> cases h <;> rfl

/-- The flags of two nodes differ under some keys, and the nodes under others. -/
theorem partsLike_of_said {keys : List String} {raw raw' flags flags' : Entries}
    (h : Entries.SameBeside keys raw raw') (hkeys : ∀ name ∈ keys, name ∈ Node.ownKeys)
    (hflags : (raw.field "flags").object? = some flags)
    (hflags' : (raw'.field "flags").object? = some flags') (hlike : Flags.Like flags flags')
    (hrules : ∀ path path', (Node.readRules flags raw path).withoutPaths id =
      (Node.readRules flags' raw' path').withoutPaths id)
    (hlists : ∀ path path', (Node.readLists flags raw path).withoutPaths id =
      (Node.readLists flags' raw' path').withoutPaths id) : Node.PartsLike child raw raw' := by
  have hother : ∀ name, name ∉ Node.ownKeys → name ∉ keys := fun name hname hmem =>
    hname (hkeys name hmem)
  refine Node.PartsLike.of_sameBeside hsteady h (fun name hname => hother name ?_)
    (.inr fun kind path path' => ?_) (.inl fun name hname => hother name ?_)
    (.inl (hother _ (by decide))) (.inl (hother _ (by decide))) (.inl (hother _ (by decide)))
    (.inl (hother _ (by decide))) (.inl fun name hname => hother name ?_)
  · revert name
    decide
  · rw [Node.readOwn_of_object? hflags, Node.readOwn_of_object? hflags']
    exact Node.readSaid_like hlike hrules hlists kind path path'
  · revert name
    decide
  · revert name
    decide

theorem partsLike_only {raw raw' flags flags' : Entries} {valids allow : List Value}
    (h : Entries.SameBeside ["flags", "valids", "allow"] raw raw')
    (hflags : (raw.field "flags").object? = some flags)
    (hflags' : (raw'.field "flags").object? = some flags')
    (hsame : Entries.SameBeside ["only"] flags flags') (honly : (flags.field "only").truthy = true)
    (hvalids : (raw.field "valids").listed? = some valids)
    (hallow : (raw.field "allow").listed? = some allow)
    (hvalids' : (raw'.field "valids").listed? = some (valids ++ allow))
    (hallow' : (raw'.field "allow").listed? = some []) : Node.PartsLike child raw raw' := by
  refine partsLike_of_said hsteady h (by decide) hflags hflags' (.of_sameBeside hsame (by decide))
    (Node.readRules_of_eq (hsame.field (by decide)) (h.field (by decide))) fun path path' => ?_
  have happend := readLiterals_append hvalids hallow hvalids' (path.key "valids") (path.key "allow")
    (path'.key "valids")
  have hleft : Node.readLists flags raw path = (do
      let values ← (do
        let listed ← readLiterals (raw.field "valids") (path.key "valids")
        let extra ← readLiterals (raw.field "allow") (path.key "allow")
        return listed ++ extra : Checked (List Value))
      return (values, [])) := by
    simp only [Node.readLists, honly, if_true, bind_assoc, pure_bind]
  have hright : Node.readLists flags' raw' path' = (do
      let values ← readLiterals (raw'.field "valids") (path'.key "valids")
      return (values, [])) := by
    simp only [Node.readLists, readLiterals_of_listed? hallow', checkLiterals, Outcome.ok_bind,
      pure_bind, List.append_nil, ite_self]
  rw [hleft, hright]
  exact withoutPaths_bind_id happend fun values => rfl

theorem partsLike_invalid {raw raw' : Entries} {invalids invalid : List Value}
    (h : Entries.SameBeside ["invalids", "invalid"] raw raw')
    (hinvalids : (raw.field "invalids").listed? = some invalids)
    (hinvalid : (raw.field "invalid").listed? = some invalid)
    (hinvalids' : (raw'.field "invalids").listed? = some (invalids ++ invalid))
    (hinvalid' : (raw'.field "invalid").listed? = some []) : Node.PartsLike child raw raw' := by
  refine Node.PartsLike.of_sameBeside hsteady h (by decide) (.inl (by decide))
    (.inr fun path path' => ?_) (.inl (by decide)) (.inl (by decide)) (.inl (by decide))
    (.inl (by decide)) (.inl (by decide))
  have hright : Node.readInvalids raw' path' =
      readLiterals (raw'.field "invalids") (path'.key "invalids") := by
    simp only [Node.readInvalids, readLiterals_of_listed? hinvalid', checkLiterals, Outcome.ok_bind,
      pure_bind, List.append_nil, bind_pure]
  rw [hright]
  exact readLiterals_append hinvalids hinvalid hinvalids' _ _ _

theorem partsLike_strip {raw raw' flags flags' : Entries} (h : Entries.SameBeside ["flags"] raw raw')
    (hflags : (raw.field "flags").object? = some flags)
    (hflags' : (raw'.field "flags").object? = some flags')
    (hsame : Entries.SameBeside ["result", "strip"] flags flags')
    (hresult : (flags.field "result").isText "strip" = true)
    (hstrip : flags.field "strip" = .null ∨ ∃ b, flags.field "strip" = .bool b)
    (hstrip' : flags'.field "strip" = .bool true) : Node.PartsLike child raw raw' := by
  have hleft : ∀ path, Flags.readStrip flags path = .ok (some true) := by
    intro path
    rcases hstrip with hstrip | ⟨b, hstrip⟩ <;>
      simp only [Flags.readStrip, Flags.readBoolean, hstrip, hresult, if_true] <;> rfl
  have hright : ∀ path, Flags.readStrip flags' path = .ok (some true) := by
    intro path
    simp only [Flags.readStrip, Flags.readBoolean, hstrip', Outcome.ok_bind, ite_self]
    rfl
  have hlike : Flags.Like flags flags' := by
    refine ⟨fun name hname => hsame name ?_, fun path path' => by rw [hleft, hright]⟩
    revert name
    decide
  exact partsLike_of_said hsteady h (by decide) hflags hflags' hlike
    (Node.readRules_of_eq (hsame.field (by decide)) (h.field (by decide)))
    (Node.readLists_of_eq (hsame.field (by decide)) (h.field (by decide)) (h.field (by decide)))

omit hsteady in
theorem rulesWith_integer (flags : Entries) (rules : List Rule) :
    Node.rulesWith flags ({ name := "integer" } :: rules) = { name := "integer" } :: rules := by
  unfold Node.rulesWith
  split
  · simp [Rule.withInteger]
  · rfl

omit hsteady in
theorem isRule_of_read {v : Value} {path : Path} {rule : Rule} (h : Rule.read v path = .ok rule) :
    v.isRule rule.name = true := by
  unfold Rule.read at h
  split at h
  · split at h
    · rename_i entries name hname
      obtain ⟨args, -, hrule⟩ := Outcome.bind_ok.1 h
      cases hrule
      simp [Value.isRule, hname, Value.isText]
    · cases h
  · cases h

omit hsteady in
/-- The rule in front is read like the flag, provided that no other rule of its name follows. -/
theorem readRules_integer {raw raw' flags flags' rule : Entries} {rules : List Value}
    (hinteger : flags.field "integer" = .bool true)
    (hrules : (raw.field "rules").listed? = some rules)
    (hnone : ∀ rule ∈ rules, rule.isRule "integer" = false)
    (hrules' : (raw'.field "rules").listed? = some (.map rule :: rules))
    (hrule : ∀ path, Rule.read (.map rule) path = .ok { name := "integer" }) (path path' : Path) :
    (Node.readRules flags raw path).withoutPaths id =
      (Node.readRules flags' raw' path').withoutPaths id := by
  have hsteady : List.Forall₂ (fun v v' => ∀ path path', (Rule.read v path).withoutPaths id =
      (Rule.read v' path').withoutPaths id) rules rules :=
    List.forall₂_same.2 fun item _ => Rule.read_steady item
  -- Behind the new rule every other rule is read one place later.
  have hrest := withoutPaths_readFrom hsteady (path.key "rules") (path'.key "rules") 0 1
  simp only [Node.readRules, Rule.readAll_of_listed? hrules, Rule.readAll_of_listed? hrules', readEach,
    List.zipIdx_cons, List.mapM_cons, hrule, Outcome.ok_bind, bind_assoc, pure_bind, Nat.zero_add]
  refine withoutPaths_bind_of hrest fun read read' hread _ hsame => withoutPaths_ok ?_
  obtain rfl : read = read' := by simpa only [List.map_id_fun, id] using hsame
  have hnames : ∀ r ∈ read, (r.name == "integer") = false := by
    intro r hr
    obtain ⟨⟨item, i⟩, hitem, hitemRead⟩ := Outcome.mapM_ok_mem hread r hr
    have hmem : item ∈ rules := List.fst_mem_of_mem_zipIdx hitem
    have hrule := isRule_of_read hitemRead
    rw [beq_eq_false_iff_ne]
    intro hname
    rw [hname, hnone item hmem] at hrule
    cases hrule
  have hany : (read.any fun r => r.name == "integer") = false := by
    simpa only [List.any_eq_false, Bool.not_eq_true] using hnames
  rw [rulesWith_integer, Node.rulesWith, hinteger]
  simp [Rule.withInteger, hany]

theorem partsLike_integer {raw raw' flags flags' rule : Entries} {rules : List Value}
    (h : Entries.SameBeside ["flags", "rules"] raw raw')
    (hflags : (raw.field "flags").object? = some flags)
    (hflags' : (raw'.field "flags").object? = some flags')
    (hsame : Entries.SameBeside ["integer"] flags flags')
    (hinteger : flags.field "integer" = .bool true)
    (hrules : (raw.field "rules").listed? = some rules)
    (hnone : ∀ rule ∈ rules, rule.isRule "integer" = false)
    (hrules' : (raw'.field "rules").listed? = some (.map rule :: rules))
    (hname : rule.field "name" = .str "integer")
    (hargs : (rule.field "args").listed? = some [] ∨ rule.field "args" = .map []) :
    Node.PartsLike child raw raw' := by
  have hrule : ∀ path, Rule.read (.map rule) path = .ok { name := "integer" } := by
    intro path
    have hread : Rule.readArguments (rule.field "args") (path.key "args") = .ok [] := by
      rcases hargs with hargs | hargs
      · exact readArguments_of_listed? hargs _
      · rw [hargs]
        rfl
    simp only [Rule.read, hname, hread]
    rfl
  exact partsLike_of_said hsteady h (by decide) hflags hflags' (.of_sameBeside hsame (by decide))
    (readRules_integer hinteger hrules hnone hrules' hrule)
    (Node.readLists_of_eq (hsame.field (by decide)) (h.field (by decide)) (h.field (by decide)))

omit hsteady in
theorem readListed_of_listed? {raw : Value} {items : List Value} (h : raw.listed? = some items)
    (path : Path) : Node.readListed raw path =
      readEach (fun item path => do return (← item.asEntries path, path)) items path := by
  cases raw <;> cases h <;> rfl

theorem partsLike_metadata {raw raw' : Entries} {entry : Value}
    (h : Entries.SameBeside ["metas", "metadata"] raw raw')
    (hmetas : (raw.field "metas").items? = some [entry]) (hnone : raw.field "metadata" = .null)
    (hmetas' : (raw'.field "metas").listed? = some []) (hmetadata' : raw'.field "metadata" = entry) :
    Node.PartsLike child raw raw' := by
  refine Node.PartsLike.of_sameBeside hsteady h (by decide) (.inl (by decide)) (.inl (by decide))
    (.inl (by decide)) (.inl (by decide)) (.inl (by decide)) (.inl (by decide))
    (.inr fun path path' => ?_)
  have hlisted : (raw.field "metas").listed? = some [entry] := by
    generalize raw.field "metas" = metas at hmetas
    cases metas <;> cases hmetas <;> rfl
  simp only [Node.readNaming, Node.readMetas_eq, readListed_of_listed? hlisted,
    readListed_of_listed? hmetas', hnone, hmetadata', readEach_singleton, bind_assoc, pure_bind]
  cases entry with
  | null => rfl
  | map entries =>
    have hlast : (Node.lastName [(entries, (path.key "metas").index 0)] none).withoutPaths id =
        (Node.lastName [(entries, path'.key "metadata")] none).withoutPaths id := by
      refine Node.lastName_like ?_ none
      rfl
    exact hlast
  | _ => rfl

omit hsteady in
theorem read_arguments {raw raw' args : Entries} (h : Entries.SameBeside ["args"] raw raw')
    (hargs : raw.field "args" = .map args)
    (hargs' : (raw'.field "args").listed? = some (args.map Prod.snd)) (path path' : Path) :
    (Rule.read (.map raw) path).withoutPaths id = (Rule.read (.map raw') path').withoutPaths id := by
  have hread : ∀ path, Rule.readArguments (.map args) path = .ok (args.map Prod.snd) := fun _ => rfl
  simp only [Rule.read, h.field (by decide : "name" ∉ ["args"]), hargs, hread,
    readArguments_of_listed? hargs']
  split <;> rfl

omit hsteady in
theorem readObject_of_form {r : Reference} {raw : Entries} (h : r.ObjectForm raw) (path : Path) :
    Reference.readObject raw path = .ok r := by
  have hsegments : ∀ {segments : List String} {v : Value}, v.items? = some (segments.map .str) →
      ∀ path, Reference.readSegments v path = .ok segments := by
    intro segments v hv path
    simp [Reference.readSegments, hv, Value.text?, List.filterMap_map, Function.comp_def]
  cases h with
  | sibling hpath hancestor htype =>
    simp only [Reference.readObject, hsegments hpath, hancestor, htype, Reference.readAncestor]
    rfl
  | ancestor hpath hancestor htype =>
    simp only [Reference.readObject, hsegments hpath, hancestor, htype, Reference.readAncestor]
    rfl
  | root hpath hancestor htype =>
    simp only [Reference.readObject, hsegments hpath, hancestor, htype, Reference.readAncestor]
    rfl
  | context hpath hancestor htype =>
    simp only [Reference.readObject, hsegments hpath, hancestor, htype, Reference.readAncestor]
    rfl
  | inner hpath hancestor htype =>
    simp only [Reference.readObject, hsegments hpath, hancestor, htype, Reference.readAncestor]
    rfl

end Reading

end Spelling

end Schemata
