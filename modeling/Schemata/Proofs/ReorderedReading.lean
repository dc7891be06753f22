import Schemata.Proofs.EntryOrder
/-!
Reading does not depend on the order of entries.

Every reader is given two values that only differ in the order of entries, where that says nothing. The
checks of a reader come in the order of its code, so that both values fail at the same check, or both
are read as the same. A description is read level by level, with a reader for the level below that
already reads both alike.

Component: the reader of nodes, `Node.read`, reader by reader. Main results:
- `readKeys_reordered` — properties are read in their order;
- `readMatch_reordered` — a member stays a node, a holder of one or a conditional;
- `ofValue_reordered` — the order of entries decides neither the node nor the error.
-/

namespace Schemata

open Checked Position

/-! ## Flags, rules and references -/

section Objects
variable {raw raw' : Entries} {v w : Value}

theorem readFlags_reordered (h : flags.Agrees raw raw') (kind : Kind) (path : Path) :
    Node.readFlags raw kind path = Node.readFlags raw' kind path := by
  simp only [Node.readFlags, Flags.read, Flags.readBoolean, Flags.readText,
    h.field_eq (by decide : ("presence", .value) ∈ flags.keys),
    h.get_eq (by decide : ("default", .value) ∈ flags.keys),
    h.field_eq (by decide : ("strip", .value) ∈ flags.keys),
    h.field_eq (by decide : ("result", .value) ∈ flags.keys),
    h.field_eq (by decide : ("unknown", .value) ∈ flags.keys),
    h.field_eq (by decide : ("match", .value) ∈ flags.keys),
    h.field_eq (by decide : ("label", .value) ∈ flags.keys),
    h.field_eq (by decide : ("description", .value) ∈ flags.keys)]

theorem readRule_reordered (h : rule.Matches v w) (path : Path) :
    Rule.read v path = Rule.read w path := by
  rcases h with rfl | ⟨raw, raw', rfl, rfl, h⟩
  · rfl
  · simp only [Rule.read, h.field_eq (by decide : ("name", .value) ∈ rule.keys),
      h.field_eq (by decide : ("args", .value) ∈ rule.keys)]

theorem readAll_reordered (h : Reordered (.each .rule) v w) (path : Path) :
    Rule.readAll v path = Rule.readAll w path := by
  have hlist : readList Rule.read v path = readList Rule.read w path :=
    readList_reordered (fun v w h => readRule_reordered (h.matches rfl)) h path
  cases h with
  | same => rfl
  | object hposition => cases hposition
  | list => exact hlist
  | tuple => exact hlist

theorem readReference_reordered (h : Position.reference.Matches v w) (path : Path) :
    Reference.read v path = Reference.read w path := by
  rcases h with rfl | ⟨raw, raw', rfl, rfl, h⟩
  · rfl
  · simp only [Reference.read, Value.asEntries, Outcome.ok_bind, Reference.readObject,
      h.field_eq (by decide : ("path", .value) ∈ Position.reference.keys),
      h.get_eq (by decide : ("ancestor", .value) ∈ Position.reference.keys),
      h.get_eq (by decide : ("type", .value) ∈ Position.reference.keys)]

end Objects

/-! ## Names -/

section Naming
variable {raw raw' : Entries} {v w : Value}

/-- Two objects at the same path in which a node is given the same name. -/
def SameNaming (a b : Entries × Path) : Prop := naming.Agrees a.1 b.1 ∧ a.2 = b.2

theorem readListed_reordered (h : Reordered (.each .naming) v w) (path : Path) :
    Both (List.Forall₂ SameNaming) (Node.readListed v path) (Node.readListed w path) := by
  have hread : ∀ v w, Reordered .naming v w → ∀ path : Path, Both SameNaming
      (do return (← v.asEntries path, path)) (do return (← w.asEntries path, path)) := by
    intro v w h path
    exact (asEntries_both (h.matches rfl) path).bind fun raw raw' hraw => .ok ⟨hraw, rfl⟩
  have hlisted := (asItems_both h path).bind fun vs ws hitems => readEach_both hread hitems path
  cases h with
  | same => exact .refl (fun metas => List.forall₂_same.2 fun a _ => ⟨.refl .naming a.1, rfl⟩) _
  | object hposition => cases hposition
  | list => exact hlisted
  | tuple => exact hlisted

theorem addMetadata_reordered (h : naming.Matches v w) {listed listed' : List (Entries × Path)}
    (hlisted : List.Forall₂ SameNaming listed listed') (path : Path) :
    Both (List.Forall₂ SameNaming) (Node.addMetadata v path listed)
      (Node.addMetadata w path listed') := by
  have hadd : ∀ {raw raw' : Entries}, naming.Agrees raw raw' → List.Forall₂ SameNaming
      (listed ++ [(raw, path)]) (listed' ++ [(raw', path)]) :=
    fun hraw => List.rel_append hlisted (.cons ⟨hraw, rfl⟩ .nil)
  rcases h with rfl | ⟨raw, raw', rfl, rfl, h⟩
  · unfold Node.addMetadata
    split
    · exact .ok hlisted
    · exact (asEntries_both (.inl rfl) path).bind fun raw raw' hraw => .ok (hadd hraw)
  · exact .ok (hadd h)

theorem lastName_reordered {metas metas' : List (Entries × Path)}
    (h : List.Forall₂ SameNaming metas metas') (name : Option String) :
    Node.lastName metas name = Node.lastName metas' name := by
  induction h generalizing name with
  | nil => rfl
  | @cons a b _ _ hhead _ ih =>
    obtain ⟨raw, path⟩ := a
    obtain ⟨raw', path'⟩ := b
    obtain ⟨hraw, rfl⟩ := hhead
    simp only [Node.lastName, hraw.get_eq (by decide : ("className", .value) ∈ naming.keys), ih]

theorem readNaming_reordered (h : node.Agrees raw raw') (path : Path) :
    Node.readNaming raw path = Node.readNaming raw' path := by
  simp only [Node.readNaming, Node.readMetas_eq]
  have hlisted := readListed_reordered (h.field (by decide : ("metas", _) ∈ node.keys))
    (path.key "metas")
  refine (hlisted.bind fun listed listed' hlisted => ?_).bind_eq fun metas metas' hmetas =>
    lastName_reordered hmetas none
  exact addMetadata_reordered ((h.field (by decide : ("metadata", _) ∈ node.keys)).matches rfl) hlisted _

end Naming

/-! ## Conditionals -/

/-- A reader of descriptions that only looks at what stands under the keys of nodes. -/
def ChildReader.IgnoresOrder (child : ChildReader) : Prop :=
  ∀ v w, node.Matches v w → ∀ path, child v path = child w path

section Conditionals
variable {child : ChildReader} (hchild : child.IgnoresOrder) {raw raw' : Entries} {v w : Value}
include hchild

theorem readBranch_reordered (h : Reordered .node v w) (path : Path) :
    Case.readBranch child v path = Case.readBranch child w path := by
  have hread := hchild v w (h.matches rfl) path
  rcases h.matches rfl with rfl | ⟨raw, raw', rfl, rfl, -⟩
  · rfl
  · simp only [Case.readBranch, hread]

/-- A reordered description is still a description, and no other test is reordered. -/
theorem readCondition_reordered (h : Reordered .test v w) (path : Path) :
    Case.readCondition child (some v) path = Case.readCondition child (some w) path := by
  cases h with
  | same => rfl
  | object hposition => cases hposition
  | description hv h =>
    have hread := hchild v w (h.matches rfl) path
    rcases h.matches rfl with rfl | ⟨raw, raw', rfl, rfl, hraw⟩
    · rfl
    · have hw : Case.isDescription (.map raw') = true :=
        (Node.has_of_rel (hraw _ (by decide : ("type", .value) ∈ node.keys))).symm.trans hv
      simp only [Case.readCondition, hv, hw, if_true, hread]

omit hchild in
theorem isTrue_reordered (h : Reordered .test v w) : v.isTrue = w.isTrue := by
  cases h with
  | same => rfl
  | object hposition => cases hposition
  | description _ h =>
    rcases h.matches rfl with rfl | ⟨raw, raw', rfl, rfl, -⟩
    · rfl
    · rfl

theorem readTest_reordered (h : case.Agrees raw raw') (path : Path) :
    Case.readTest child raw path = Case.readTest child raw' path := by
  have hside : ∀ {v w : Value}, Reordered .test v w → ∀ negated path,
      Case.readSide child negated v path = Case.readSide child negated w path := by
    intro v w h negated path
    simp only [Case.readSide, readCondition_reordered hchild h path]
  rw [Case.readTest_eq, Case.readTest_eq]
  have his := h _ (by decide : ("is", .test) ∈ case.keys)
  have hnot := h _ (by decide : ("not", .test) ∈ case.keys)
  generalize raw.get? "is" = is, raw'.get? "is" = is' at his
  generalize raw.get? "not" = negation, raw'.get? "not" = negation' at hnot
  cases his with
  | none =>
    cases hnot with
    | none => rfl
    | some hnot => exact hside hnot true _
  | some his =>
    cases hnot with
    | none => exact hside his false _
    | some hnot => simp only [isTrue_reordered hnot, hside his]

theorem readCase_reordered (h : case.Agrees raw raw') (path : Path) :
    Case.read child raw path = Case.read child raw' path := by
  rw [Case.read_eq, Case.read_eq, readTest_reordered hchild h,
    readBranch_reordered hchild (h.field (by decide : ("then", _) ∈ case.keys))]

theorem readSwitchCase_reordered (h : Reordered .case v w) (path : Path) :
    Guard.readSwitchCase child v path = Guard.readSwitchCase child w path := by
  refine (asEntries_both (h.matches rfl) path).bind_eq fun raw raw' hraw => ?_
  rw [readCase_reordered hchild hraw,
    readBranch_reordered hchild (hraw.field (by decide : ("otherwise", _) ∈ case.keys))]

omit hchild in
theorem readReference_of_agrees (h : guard.Agrees raw raw') (path : Path) :
    Guard.readReference raw path = Guard.readReference raw' path := by
  have href := h _ (by decide : ("ref", .reference) ∈ guard.keys)
  have hkey := h _ (by decide : ("referenceKey", .reference) ∈ guard.keys)
  unfold Guard.readReference
  generalize raw.get? "ref" = ref, raw'.get? "ref" = ref' at href
  generalize raw.get? "referenceKey" = key, raw'.get? "referenceKey" = key' at hkey
  cases href with
  | some href => exact readReference_reordered (href.matches rfl) _
  | none =>
    cases hkey with
    | some hkey => exact readReference_reordered (hkey.matches rfl) _
    | none => rfl

theorem readCases_reordered (h : guard.Agrees raw raw') (path : Path) :
    Guard.readCases child raw path = Guard.readCases child raw' path := by
  have hrel := h _ (by decide : ("switch", .each .case) ∈ guard.keys)
  generalize hswitch : raw.get? "switch" = switch, hswitch' : raw'.get? "switch" = switch' at hrel
  cases hrel with
  | none =>
    rw [Guard.readCases_of_none hswitch, Guard.readCases_of_none hswitch',
      readCase_reordered hchild (h.mono (by decide))]
  | some hcases =>
    rw [Guard.readCases_of_switch hswitch, Guard.readCases_of_switch hswitch',
      readList_reordered (fun _ _ => readSwitchCase_reordered hchild) hcases]

theorem readGuard_reordered (h : guard.Matches v w) (path : Path) :
    Guard.read child v path = Guard.read child w path := by
  rcases h with rfl | ⟨raw, raw', rfl, rfl, hraw⟩
  · rfl
  · simp only [Guard.read_eq, Guard.readArms, readReference_of_agrees hraw,
      readCases_reordered hchild hraw,
      readBranch_reordered hchild (hraw.field (by decide : ("otherwise", _) ∈ guard.keys))]

end Conditionals

/-! ## Nodes -/

section Nodes
variable {child : ChildReader} {raw raw' : Entries} {v w : Value}

theorem readKind_reordered (h : node.Agrees raw raw') (path : Path) :
    Node.readKind raw path = Node.readKind raw' path := by
  simp only [Node.readKind, h.field_eq (by decide : ("type", .value) ∈ node.keys)]

theorem checkKeys_reordered (h : node.Agrees raw raw') (path : Path) :
    Node.checkKeys raw path = Node.checkKeys raw' path := by
  simp only [Node.checkKeys, Node.inexpressibleKeys, List.find?_cons, List.find?_nil,
    h.field_eq (by decide : ("dependencies", .value) ∈ node.keys),
    h.field_eq (by decide : ("patterns", .value) ∈ node.keys),
    h.field_eq (by decide : ("renames", .value) ∈ node.keys),
    h.field_eq (by decide : ("ordered", .value) ∈ node.keys)]

theorem checkContainers_reordered (h : node.Agrees raw raw') (kind : Kind) (path : Path) :
    Node.checkContainers raw kind path = Node.checkContainers raw' kind path := by
  simp only [Node.checkContainers, Node.childKeys, List.find?_cons, List.find?_nil,
    Node.has_of_rel (h _ (by decide : ("keys", .properties) ∈ node.keys)),
    Node.has_of_rel (h _ (by decide : ("items", .each .node) ∈ node.keys)),
    Node.has_of_rel (h _ (by decide : ("matches", .each .member) ∈ node.keys))]

theorem readOwn_reordered (h : node.Agrees raw raw') (kind : Kind) (path : Path) :
    Node.readOwn raw kind path = Node.readOwn raw' kind path := by
  have hflags := (h.field (by decide : ("flags", .flags) ∈ node.keys)).matches rfl
  refine (asEntries_both hflags _).bind_eq fun rawFlags rawFlags' hraw => ?_
  simp only [Node.readSaid, Node.readRules, Node.rulesWith, Node.readLists,
    readFlags_reordered hraw, readAll_reordered (h.field (by decide : ("rules", _) ∈ node.keys)),
    hraw.field_eq (by decide : ("integer", .value) ∈ flags.keys),
    hraw.field_eq (by decide : ("only", .value) ∈ flags.keys),
    h.field_eq (by decide : ("valids", .value) ∈ node.keys),
    h.field_eq (by decide : ("allow", .value) ∈ node.keys)]

theorem readInvalids_reordered (h : node.Agrees raw raw') (path : Path) :
    Node.readInvalids raw path = Node.readInvalids raw' path := by
  simp only [Node.readInvalids, h.field_eq (by decide : ("invalids", .value) ∈ node.keys),
    h.field_eq (by decide : ("invalid", .value) ∈ node.keys)]

theorem readPart_reordered {α : Type} {read : Value → Path → Checked α} {position : Position}
    (hread : ∀ v w, Reordered position v w → ∀ path, read v path = read w path) {key : String}
    (h : Option.Rel (Reordered position) (raw.get? key) (raw'.get? key)) (absent : α) (path : Path) :
    Node.readPart read absent raw key path = Node.readPart read absent raw' key path := by
  unfold Node.readPart
  generalize raw.get? key = v, raw'.get? key = w at h
  cases h with
  | none => rfl
  | some h => exact hread _ _ h _

variable (hchild : child.IgnoresOrder)
include hchild

/-- The properties are read in their order, which is the same on both sides. -/
theorem readKeys_reordered (h : Reordered .properties v w) (path : Path) :
    Node.readKeys child v path = Node.readKeys child w path := by
  have hproperties : ∀ {raw raw' : Entries}, ReorderedEntries .properties raw raw' →
      raw.mapM (Node.readProperty child path) = raw'.mapM (Node.readProperty child path) := by
    intro raw
    induction raw with
    | nil =>
      intro raw' h
      cases h
      rfl
    | cons entry rest ih =>
      intro raw' h
      cases h with
      | @cons _ key v w _ _ h hrest =>
        have hproperty : Node.readProperty child path (key, v) =
            Node.readProperty child path (key, w) := by
          cases key with
          | str name =>
            have hnode : Reordered .node v w := h
            simp only [Node.readProperty, hchild v w (hnode.matches rfl)]
          | _ => rfl
        rw [List.mapM_cons, List.mapM_cons, hproperty, ih hrest]
  cases h with
  | same => rfl
  | object hposition => cases hposition
  | properties h => rw [Node.readKeys_map, Node.readKeys_map, hproperties h]

/-- A member stays a node, a holder of one or a conditional. -/
theorem readMatch_reordered (h : Reordered .member v w) (path : Path) :
    Node.readMatch child v path = Node.readMatch child w path := by
  rcases h.matches rfl with rfl | ⟨raw, raw', rfl, rfl, hraw⟩
  · rfl
  · have hnode : node.Matches (.map raw) (.map raw') :=
      .inr ⟨raw, raw', rfl, rfl, hraw.mono (by decide)⟩
    have hguard : guard.Matches (.map raw) (.map raw') :=
      .inr ⟨raw, raw', rfl, rfl, hraw.mono (by decide)⟩
    have htype := Node.has_of_rel (hraw _ (by decide : ("type", .value) ∈ member.keys))
    have hschema := hraw _ (by decide : ("schema", .node) ∈ member.keys)
    simp only [Node.readMatch, htype, hchild _ _ hnode, readGuard_reordered hchild hguard]
    generalize Entries.get? raw "schema" = v, Entries.get? raw' "schema" = w at hschema
    cases hschema with
    | none => rfl
    | some hschema => simp only [hchild _ _ (hschema.matches rfl)]

theorem readMembers_reordered (h : node.Agrees raw raw') (kind : Kind) (path : Path) :
    Node.readMembers child raw kind path = Node.readMembers child raw' kind path := by
  have hmembers := h _ (by decide : ("matches", .each .member) ∈ node.keys)
  unfold Node.readMembers
  generalize raw.get? "matches" = v, raw'.get? "matches" = w at hmembers
  cases hmembers with
  | none => rfl
  | some hmembers =>
    simp only [Node.readMatches_eq,
      readList_reordered (fun _ _ => readMatch_reordered hchild) hmembers]

theorem readLevel_reordered (h : node.Agrees raw raw') (path : Path) :
    Node.readLevel child (.map raw) path = Node.readLevel child (.map raw') path := by
  have hkeys := readPart_reordered (fun _ _ => readKeys_reordered hchild)
    (h _ (by decide : ("keys", .properties) ∈ node.keys)) none path
  have hitems : Node.readPart (Node.readItems child) [] raw "items" path =
      Node.readPart (Node.readItems child) [] raw' "items" path :=
    readPart_reordered (fun _ _ => readList_reordered fun v w h => hchild v w (h.matches rfl))
      (h _ (by decide : ("items", .each .node) ∈ node.keys)) [] path
  have hwhens : Node.readPart (Node.readWhens child) [] raw "whens" path =
      Node.readPart (Node.readWhens child) [] raw' "whens" path :=
    readPart_reordered
      (fun _ _ => readList_reordered fun v w h => readGuard_reordered hchild (h.matches rfl))
      (h _ (by decide : ("whens", .each .guard) ∈ node.keys)) [] path
  simp only [Node.readLevel_parts, Node.asDescription, Outcome.ok_bind, readKind_reordered h,
    checkKeys_reordered h, checkContainers_reordered h, readOwn_reordered h, readInvalids_reordered h,
    hkeys, hitems, readMembers_reordered hchild h, hwhens, readNaming_reordered h]

end Nodes

namespace Node

theorem read_ignoresOrder (limit : Int) (levels : Nat) :
    ChildReader.IgnoresOrder (read limit levels) := by
  induction levels with
  | zero => exact fun _ _ _ _ => rfl
  | succ levels ih =>
    intro v w h path
    rcases h with rfl | ⟨raw, raw', rfl, rfl, hraw⟩
    · rfl
    · exact readLevel_reordered ih hraw path

/-- The order of entries does not decide what a description is read as, nor which of its faults is
reported. -/
theorem ofValue_reordered (limit : Int) {raw raw' : Value} (h : Reordered .node raw raw') :
    ofValue limit raw = ofValue limit raw' :=
  read_ignoresOrder limit limit.toNat raw raw' (h.matches rfl) .root

/-- In the branch of a switch two flags are at fault. In either order the same one is reported. -/
theorem ofValue_reordered_faults :
    let flag : Value × Value := (.str "strip", .int 1)
    let presence : Value × Value := (.str "presence", .str "never")
    let branch : Value := .map [(.str "type", .str "any"), (.str "flags", .map [flag, presence])]
    let branch' : Value := .map [(.str "flags", .map [presence, flag]), (.str "type", .str "any")]
    let ancestor : Value × Value := (.str "ancestor", .int 1)
    let segments : Value × Value := (.str "path", .list [.str "a"])
    let test : Value × Value := (.str "is", .bool true)
    let guard : Value := .map [(.str "ref", .map [ancestor, segments]),
      (.str "switch", .list [.map [test, (.str "then", branch)]])]
    let guard' : Value := .map [(.str "switch", .list [.map [(.str "then", branch'), test]]),
      (.str "ref", .map [segments, ancestor])]
    let raw : Value := .map [(.str "type", .str "any"), (.str "whens", .list [guard])]
    let raw' : Value := .map [(.str "whens", .list [guard']), (.str "type", .str "any")]
    Reordered .node raw raw' ∧ ofValue 8 raw = ofValue 8 raw' ∧
      ofValue 8 raw' = .error ⟨.malformed (.unknownPresence (.str "never")),
        ⟨"", [.key "whens", .index 0, .key "switch", .index 0, .key "then", .key "flags",
          .key "presence"]⟩⟩ := by
  intro flag presence branch branch' ancestor segments test guard guard' raw raw'
  have hbranch : Reordered .node branch branch' :=
    .object rfl (by decide) (.cons (.same _ _) (.cons (.object rfl (by decide)
      (.cons (.same _ _) (.cons (.same _ _) .nil)) (.swap _ _ _)) .nil)) (.swap _ _ _)
  have hreference : Reordered .reference (.map [ancestor, segments]) (.map [segments, ancestor]) :=
    .object rfl (by decide) (.cons (.same _ _) (.cons (.same _ _) .nil)) (.swap _ _ _)
  have hcase : Reordered .case (.map [test, (.str "then", branch)])
      (.map [(.str "then", branch'), test]) :=
    .object rfl (by decide) (.cons (.same _ _) (.cons hbranch .nil)) (.swap _ _ _)
  have hguard : Reordered .guard guard guard' :=
    .object rfl (by decide) (.cons hreference (.cons (.list (.cons hcase .nil)) .nil)) (.swap _ _ _)
  have h : Reordered .node raw raw' :=
    .object rfl (by decide) (.cons (.same _ _) (.cons (.list (.cons hguard .nil)) .nil)) (.swap _ _ _)
  exact ⟨h, ofValue_reordered 8 h, rfl⟩

end Node

end Schemata
