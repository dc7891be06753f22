import Schemata.Compiler
import Schemata.Proofs.SpellingPairs
import Schemata.Proofs.TwoRuns
/-!
Descriptions that are spelled differently compile alike.

`Respelled` closes the pairs of spellings under replacing one spelling by the other, at any place of a
description, any number of times and in both directions. All spellings of a description are read as
the same node up to paths. The same nodes are written alike, so that all spellings have the same code,
the same declarations and the same notes, or fail for the same reason.

Component: the compilation of descriptions, `Compiler.compile`. Main results:
- `Spelling.same` — each pair of spellings is read alike;
- `Respelled.same` — and so are respelled values;
- `compile_respelled` — respelled descriptions compile alike.
-/

namespace Schemata

open Checked

/-! ## Replacing spellings anywhere -/

/-- Two values that stand for the same thing differ in their spelling only. -/
inductive Respelled : Position → Value → Value → Prop where
  | refl (position : Position) (v : Value) : Respelled position v v
  | symm {position : Position} {v w : Value} (h : Respelled position v w) : Respelled position w v
  | trans {position : Position} {u v w : Value} (h : Respelled position u v) (h' : Respelled position v w) :
      Respelled position u w
  | spelling {position : Position} {v w : Value} (h : Spelling position v w) : Respelled position v w
  /-- Inside an object, under the first key of its name. -/
  | part {position inner : Position} {key : String} {v w : Value} (before after : Entries)
      (hpart : position.parts.lookup key = some inner) (hfirst : before.get? key = none)
      (h : Respelled inner v w) :
      Respelled position (.map (before ++ (.str key, v) :: after)) (.map (before ++ (.str key, w) :: after))
  /-- Inside the properties of an object. -/
  | property {v w : Value} (before after : Entries) (name : Value) (h : Respelled .node v w) :
      Respelled .properties (.map (before ++ (name, v) :: after)) (.map (before ++ (name, w) :: after))
  /-- Inside a list. -/
  | item {position : Position} {v w : Value} (before after : List Value) (h : Respelled position v w) :
      Respelled (.each position) (.list (before ++ v :: after)) (.list (before ++ w :: after))
  | tupleItem {position : Position} {v w : Value} (before after : List Value) (h : Respelled position v w) :
      Respelled (.each position) (.tuple (before ++ v :: after)) (.tuple (before ++ w :: after))
  /-- A description is a member of alternatives. -/
  | bare {v w : Value} (hbare : v.isBare = true) (h : Respelled .node v w) : Respelled .member v w
  /-- A conditional is a member of alternatives. -/
  | conditional {raw : Entries} {w : Value}
      (hguard : raw.get? "type" = none ∧ raw.get? "schema" = none)
      (h : Respelled .guard (.map raw) w) : Respelled .member (.map raw) w
  /-- A description is a test. -/
  | description {v w : Value} (hdescription : Case.isDescription v = true) (h : Respelled .node v w) :
      Respelled .test v w

/-! ## Respelled values are read alike -/

/-- Both values are objects that agree on what decides how they are read, or they are the same. -/
def SameHead (v v' : Value) : Prop :=
  v = v' ∨ ∃ raw raw' : Entries, v = .map raw ∧ v' = .map raw' ∧ raw.get? "type" = raw'.get? "type" ∧
    raw.get? "schema" = raw'.get? "schema"

namespace SameHead

theorem symm {v v' : Value} (h : SameHead v v') : SameHead v' v := by
  rcases h with rfl | ⟨raw, raw', rfl, rfl, htype, hschema⟩
  · exact .inl rfl
  · exact .inr ⟨raw', raw, rfl, rfl, htype.symm, hschema.symm⟩

theorem trans {u v w : Value} (h : SameHead u v) (h' : SameHead v w) : SameHead u w := by
  rcases h with rfl | ⟨raw, raw', rfl, rfl, htype, hschema⟩
  · exact h'
  · rcases h' with rfl | ⟨_, raw'', hmap, rfl, htype', hschema'⟩
    · exact .inr ⟨raw, raw', rfl, rfl, htype, hschema⟩
    · cases hmap
      exact .inr ⟨raw, raw'', rfl, rfl, htype.trans htype', hschema.trans hschema'⟩

theorem of_sameBeside {keys : List String} {raw raw' : Entries}
    (h : Entries.SameBeside keys raw raw') (htype : "type" ∉ keys) (hschema : "schema" ∉ keys) :
    SameHead (.map raw) (.map raw') :=
  .inr ⟨raw, raw', rfl, rfl, h "type" htype, h "schema" hschema⟩

theorem isNull_eq {v v' : Value} (h : SameHead v v') : v.isNull = v'.isNull := by
  rcases h with rfl | ⟨raw, raw', rfl, rfl, -⟩ <;> rfl

theorem isBare_eq {v v' : Value} (h : SameHead v v') : v.isBare = v'.isBare := by
  rcases h with rfl | ⟨raw, raw', rfl, rfl, htype, hschema⟩
  · rfl
  · simp only [Value.isBare, Entries.has, htype, hschema]

theorem isDescription_eq {v v' : Value} (h : SameHead v v') :
    Case.isDescription v = Case.isDescription v' := by
  rcases h with rfl | ⟨raw, raw', rfl, rfl, htype, -⟩
  · rfl
  · simp only [Case.isDescription, Entries.has, htype]

end SameHead

/-- Two values are read as the same thing, up to paths, by readers with some levels left. -/
def Position.Same (limit : Int) (levels : Nat) : Position → Value → Value → Prop
  | .node, v, w => SameHead v w ∧ NodeLike (Node.read limit levels) v w
  | .properties, v, w => Node.KeysLike (Node.read limit levels) v w
  | .member, v, w => MemberLike (Node.read limit levels) v w
  | .guard, v, w => SameHead v w ∧ GuardLike (Node.read limit levels) v w
  | .case, v, w => Guard.SwitchCaseLike (Node.read limit levels) v w
  | .test, v, w => TestLike (Node.read limit levels) v w
  | .reference, v, w => ∀ path path',
    (Reference.read v path).withoutPaths id = (Reference.read w path').withoutPaths id
  | .rule, v, w => ∀ path path',
    (Rule.read v path).withoutPaths id = (Rule.read w path').withoutPaths id
  | .each items, v, w => ListLike (items.Same limit levels) v w
  -- Nothing here has two spellings.
  | .flags, v, w | .naming, v, w | .value, v, w => v = w

namespace Position.Same

variable {limit : Int} {levels : Nat}

theorem refl (position : Position) (v : Value) : position.Same limit levels v v := by
  have hsteady := Node.read_steady limit levels
  cases position with
  | node => exact ⟨.inl rfl, hsteady v⟩
  | properties => exact Node.keysLike_self hsteady v
  | member => exact memberLike_self hsteady v
  | guard => exact ⟨.inl rfl, guardLike_self hsteady v⟩
  | case => exact switchCaseLike_self hsteady v
  | test => exact testLike_self hsteady v
  | reference => exact Reference.read_steady v
  | rule => exact Rule.read_steady v
  | each items => exact .inl rfl
  | flags | naming | value => rfl

theorem symm {position : Position} {v w : Value} (h : position.Same limit levels v w) :
    position.Same limit levels w v := by
  induction position generalizing v w with
  | node => exact ⟨h.1.symm, fun path path' => (h.2 path' path).symm⟩
  | guard => exact ⟨h.1.symm, fun path path' => (h.2 path' path).symm⟩
  | test => exact ⟨h.1.symm, fun path path' => (h.2 path' path).symm⟩
  | each items ih =>
    rcases h with rfl | ⟨vs, ws, hv, hw, hitems⟩
    · exact .inl rfl
    · exact .inr ⟨ws, vs, hw, hv, (hitems.imp fun _ _ h => ih h).flip⟩
  | flags | naming | value => exact Eq.symm h
  | _ => exact fun path path' => (h path' path).symm

theorem forall₂_trans {R : Value → Value → Prop} (hR : ∀ u v w, R u v → R v w → R u w)
    {us vs ws : List Value} (h : List.Forall₂ R us vs) (h' : List.Forall₂ R vs ws) :
    List.Forall₂ R us ws := by
  induction h generalizing ws with
  | nil => exact h'
  | cons hhead _ ih =>
    cases h' with
    | cons hhead' htail' => exact .cons (hR _ _ _ hhead hhead') (ih htail')

theorem trans {position : Position} {u v w : Value} (h : position.Same limit levels u v)
    (h' : position.Same limit levels v w) : position.Same limit levels u w := by
  induction position generalizing u v w with
  | node => exact ⟨h.1.trans h'.1, fun path path' => (h.2 path path').trans (h'.2 path' path')⟩
  | guard => exact ⟨h.1.trans h'.1, fun path path' => (h.2 path path').trans (h'.2 path' path')⟩
  | test => exact ⟨h.1.trans h'.1, fun path path' => (h.2 path path').trans (h'.2 path' path')⟩
  | each items ih =>
    rcases h with rfl | ⟨us, vs, hu, hv, hitems⟩
    · exact h'
    · rcases h' with rfl | ⟨vs', ws, hv', hw, hitems'⟩
      · exact .inr ⟨us, vs, hu, hv, hitems⟩
      · obtain rfl : vs = vs' := Option.some.inj (hv.symm.trans hv')
        exact .inr ⟨us, ws, hu, hw, forall₂_trans (fun u v w => @ih u v w) hitems hitems'⟩
  | flags | naming | value => exact Eq.trans h h'
  | _ => exact fun path path' => (h path path').trans (h' path' path')

theorem node_of_parts {raw raw' : Entries} (hhead : SameHead (.map raw) (.map raw'))
    (h : ∀ levels, Node.PartsLike (Node.read limit levels) raw raw') :
    Position.node.Same limit levels (.map raw) (.map raw') := by
  refine ⟨hhead, ?_⟩
  cases levels with
  | zero => exact fun _ _ => rfl
  | succ levels => exact (h levels).readLevel

end Position.Same

/-- Each pair of spellings is read alike. -/
theorem Spelling.same {limit : Int} {levels : Nat} {position : Position} {v w : Value}
    (h : Spelling position v w) : position.Same limit levels v w := by
  have hsteady := Node.read_steady limit
  cases h with
  | schema h hbare => exact memberLike_schema (hsteady levels) h hbare
  | switch h hnone hswitch hitems hcase hotherwise =>
    refine ⟨.of_sameBeside h (by decide) (by decide), ?_⟩
    exact Guard.read_like (readReference_of_eq (h "ref" (by decide)) (h "referenceKey" (by decide)))
      (Guard.sameArms_of_oneCase (hsteady levels) hnone hswitch hitems hcase hotherwise)
  | negation hposition h his hnot his' hnot' =>
    rcases hposition with rfl | rfl
    · exact ⟨.of_sameBeside h (by decide) (by decide),
        guardLike_negation (hsteady levels) h his hnot his' hnot'⟩
    · exact switchCaseLike_negation (hsteady levels) h his hnot his' hnot'
  | only h hflags hflags' hsame honly hvalids hallow hvalids' hallow' =>
    exact .node_of_parts (.of_sameBeside h (by decide) (by decide)) fun levels =>
      partsLike_only (hsteady levels) h hflags hflags' hsame honly hvalids hallow hvalids' hallow'
  | invalid h hinvalids hinvalid hinvalids' hinvalid' =>
    exact .node_of_parts (.of_sameBeside h (by decide) (by decide)) fun levels =>
      partsLike_invalid (hsteady levels) h hinvalids hinvalid hinvalids' hinvalid'
  | arguments h hargs hargs' => exact read_arguments h hargs hargs'
  | strip h hflags hflags' hsame hresult hstrip hstrip' =>
    exact .node_of_parts (.of_sameBeside h (by decide) (by decide)) fun levels =>
      partsLike_strip (hsteady levels) h hflags hflags' hsame hresult hstrip hstrip'
  | integer h hflags hflags' hsame hinteger hrules hnone hrules' hname hargs =>
    exact .node_of_parts (.of_sameBeside h (by decide) (by decide)) fun levels =>
      partsLike_integer (hsteady levels) h hflags hflags' hsame hinteger hrules hnone hrules' hname
        hargs
  | metadata h hmetas hnone hmetas' hmetadata' =>
    exact .node_of_parts (.of_sameBeside h (by decide) (by decide)) fun levels =>
      partsLike_metadata (hsteady levels) h hmetas hnone hmetas' hmetadata'
  | reference h hform =>
    intro path path'
    simp only [Reference.read, Reference.parse, h, Value.asEntries, Outcome.ok_bind,
      readObject_of_form hform]

/-! ## Replacing a part -/

namespace Entries

theorem get?_append (front back : Entries) (name : String) :
    get? (front ++ back) name = (front.get? name).or (back.get? name) := by
  induction front with
  | nil => rfl
  | cons entry rest ih =>
    simp only [List.cons_append, get?, ih]
    split <;> rfl

variable {before after : Entries} {key : String} {v w : Value}

theorem get?_at (h : before.get? key = none) :
    get? (before ++ (.str key, v) :: after) key = some v := by
  simp [get?_append, h, get?, Value.isText]

theorem sameBeside_at :
    SameBeside [key] (before ++ (.str key, v) :: after) (before ++ (.str key, w) :: after) := by
  intro name hname
  have hne : (key == name) = false :=
    beq_eq_false_iff_ne.2 fun h => hname (List.mem_singleton.2 h.symm)
  simp [get?_append, get?, Value.isText, hne]

end Entries

namespace Position

variable {limit : Int} {levels : Nat}

def SameParts (limit : Int) (levels : Nat) (position : Position) (raw raw' : Entries) : Prop :=
  ∀ {name : String} {inner : Position}, position.parts.lookup name = some inner →
    Option.Rel (inner.Same limit levels) (raw.get? name) (raw'.get? name)

section Replacement
variable {position inner : Position} {key : String} {v w : Value} {before after : Entries}
  (hpart : position.parts.lookup key = some inner)
include hpart

theorem sameParts_at (hfirst : before.get? key = none) (h : inner.Same limit levels v w) :
    position.SameParts limit levels (before ++ (.str key, v) :: after)
      (before ++ (.str key, w) :: after) := by
  intro name inner' hpart'
  by_cases hname : name = key
  · subst hname
    obtain rfl : inner = inner' := Option.some.inj (hpart.symm.trans hpart')
    rw [Entries.get?_at hfirst, Entries.get?_at hfirst]
    exact .some h
  · rw [Entries.sameBeside_at name (by simpa using hname)]
    exact optionRel_self (Same.refl inner') _

theorem sameBeside_parts : Entries.SameBeside (position.parts.map Prod.fst)
    (before ++ (.str key, v) :: after) (before ++ (.str key, w) :: after) := by
  intro name hname
  refine Entries.sameBeside_at name fun hmem => hname ?_
  rw [List.mem_singleton.1 hmem]
  obtain ⟨front, back, hparts, -⟩ := List.lookup_eq_some_iff.1 hpart
  simp [hparts]

end Replacement

section Objects
variable {raw raw' : Entries}

theorem branchLike_of_rel {key : String}
    (h : Option.Rel (Position.node.Same limit levels) (raw.get? key) (raw'.get? key)) :
    BranchLike (Node.read limit levels) (raw.field key) (raw'.field key) := by
  unfold Entries.field
  generalize raw.get? key = v, raw'.get? key = w at h
  cases h with
  | none => exact branchLike_self (Node.read_steady limit levels) .null
  | some h => exact branchLike_of_nodeLike h.1.isNull_eq h.2

theorem readReference_of_parts (h : Position.guard.SameParts limit levels raw raw') (path path' : Path) :
    (Guard.readReference raw path).withoutPaths id =
      (Guard.readReference raw' path').withoutPaths id := by
  have href := h (rfl : Position.guard.parts.lookup "ref" = _)
  have hkey := h (rfl : Position.guard.parts.lookup "referenceKey" = _)
  unfold Guard.readReference
  generalize raw.get? "ref" = ref, raw'.get? "ref" = ref' at href
  generalize raw.get? "referenceKey" = referenceKey, raw'.get? "referenceKey" = referenceKey' at hkey
  cases href with
  | some href => exact href _ _
  | none =>
    cases hkey with
    | some hkey => exact hkey _ _
    | none => rfl

theorem guardLike_of_parts (h : Position.guard.SameParts limit levels raw raw') :
    GuardLike (Node.read limit levels) (.map raw) (.map raw') := by
  have htest := Case.sameTest_of_keys (h (rfl : Position.guard.parts.lookup "is" = _))
    (h (rfl : Position.guard.parts.lookup "not" = _))
  have hthen := branchLike_of_rel (h (rfl : Position.guard.parts.lookup "then" = _))
  have hotherwise := branchLike_of_rel (h (rfl : Position.guard.parts.lookup "otherwise" = _))
  have hswitch := h (rfl : Position.guard.parts.lookup "switch" = _)
  refine Guard.read_like (readReference_of_parts h) ?_
  cases hs : raw.get? "switch" with
  | none =>
    cases hs' : raw'.get? "switch" with
    | none => exact Guard.sameArms_of_case hs hs' htest hthen hotherwise
    | some switch' => simp [hs, hs'] at hswitch
  | some switch =>
    cases hs' : raw'.get? "switch" with
    | none => simp [hs, hs'] at hswitch
    | some switch' =>
      rw [hs, hs', Option.rel_some_some] at hswitch
      exact Guard.sameArms_of_switch (switchCaseLike_self (Node.read_steady limit levels)) hs hs'
        hswitch hotherwise

theorem switchCaseLike_of_parts (h : Position.case.SameParts limit levels raw raw') :
    Guard.SwitchCaseLike (Node.read limit levels) (.map raw) (.map raw') :=
  Guard.switchCaseLike_map
    (Case.sameTest_of_keys (h (rfl : Position.case.parts.lookup "is" = _))
      (h (rfl : Position.case.parts.lookup "not" = _)))
    (branchLike_of_rel (h (rfl : Position.case.parts.lookup "then" = _)))
    (branchLike_of_rel (h (rfl : Position.case.parts.lookup "otherwise" = _)))

theorem readAll_of_listLike {v w : Value} (h : (Position.each .rule).Same limit levels v w)
    (path path' : Path) :
    (Rule.readAll v path).withoutPaths id = (Rule.readAll w path').withoutPaths id := by
  have hlisted : ∀ {v : Value} {items : List Value}, v.items? = some items →
      v.listed? = some items := by
    intro v items hv
    cases v <;> cases hv <;> rfl
  rcases h with rfl | ⟨items, items', hv, hw, hitems⟩
  · exact Rule.readAll_steady v path path'
  · rw [Rule.readAll_of_listed? (hlisted hv), Rule.readAll_of_listed? (hlisted hw)]
    exact withoutPaths_readEach_id hitems path path'

theorem readRules_of_rel (h : Option.Rel ((Position.each .rule).Same limit levels) (raw.get? "rules")
    (raw'.get? "rules")) (flags : Entries) (path path' : Path) :
    (Node.readRules flags raw path).withoutPaths id =
      (Node.readRules flags raw' path').withoutPaths id := by
  refine withoutPaths_bind_id ?_ fun rules => rfl
  unfold Entries.field
  generalize raw.get? "rules" = v, raw'.get? "rules" = w at h
  cases h with
  | none => rfl
  | some h => exact readAll_of_listLike h _ _

theorem memberLike_of_schema {before after : Entries} {v w : Value}
    (hfirst : before.get? "schema" = none) (h : Position.node.Same limit levels v w) :
    MemberLike (Node.read limit levels) (.map (before ++ (.str "schema", v) :: after))
      (.map (before ++ (.str "schema", w) :: after)) := by
  intro path path'
  rw [Spelling.readMatch_schema (Entries.get?_at hfirst),
    Spelling.readMatch_schema (Entries.get?_at hfirst)]
  exact Spelling.plainMember_like h.2 _ _

theorem partsLike_of_parts (hbeside : Entries.SameBeside (Position.node.parts.map Prod.fst) raw raw')
    (h : Position.node.SameParts limit levels raw raw') :
    Node.PartsLike (Node.read limit levels) raw raw' := by
  have hkeys := h (rfl : Position.node.parts.lookup "keys" = _)
  have hitems := h (rfl : Position.node.parts.lookup "items" = _)
  have hmembers := h (rfl : Position.node.parts.lookup "matches" = _)
  have hwhens := h (rfl : Position.node.parts.lookup "whens" = _)
  have hrules := h (rfl : Position.node.parts.lookup "rules" = _)
  refine Node.PartsLike.of_sameBeside (Node.read_steady limit levels) hbeside (by decide)
    (.inr ?_) (.inl (by decide)) (.inr hkeys) (.inr ?_) (.inr hmembers) (.inr ?_)
    (.inl (by decide))
  · exact Node.readOwn_like (hbeside.field (by decide)) (readRules_of_rel hrules)
      fun flags => Node.readLists_of_eq rfl (hbeside.field (by decide)) (hbeside.field (by decide))
  · exact optionRel_mono hitems fun _ _ h => ListLike.mono h fun _ _ h => h.2
  · exact optionRel_mono hwhens fun _ _ h => ListLike.mono h fun _ _ h => h.2

end Objects

/-- A part that is read alike can be put into an object. -/
theorem same_at {position inner : Position} {key : String} {v w : Value} {before after : Entries}
    (hpart : position.parts.lookup key = some inner) (hfirst : before.get? key = none)
    (h : ∀ levels, inner.Same limit levels v w) (levels : Nat) :
    position.Same limit levels (.map (before ++ (.str key, v) :: after))
      (.map (before ++ (.str key, w) :: after)) := by
  have hbeside : Entries.SameBeside (position.parts.map Prod.fst) (before ++ (.str key, v) :: after)
      (before ++ (.str key, w) :: after) := sameBeside_parts hpart
  cases position with
  | node =>
    exact .node_of_parts (.of_sameBeside hbeside (by decide) (by decide)) fun levels =>
      partsLike_of_parts hbeside (sameParts_at hpart hfirst (h levels))
  | member =>
    have honly : Position.member.parts = [("schema", .node)] := rfl
    obtain ⟨front, back, hparts, -⟩ := List.lookup_eq_some_iff.1 hpart
    rw [honly] at hparts
    cases front with
    | nil =>
      cases hparts
      exact memberLike_of_schema hfirst (h levels)
    | cons entry front => simp at hparts
  | guard =>
    exact ⟨.of_sameBeside hbeside (by decide) (by decide),
      guardLike_of_parts (sameParts_at hpart hfirst (h levels))⟩
  | case => exact switchCaseLike_of_parts (sameParts_at hpart hfirst (h levels))
  | _ => cases hpart

theorem forall₂_at {α : Type} {R : α → α → Prop} (hself : ∀ a, R a a) {a b : α} (h : R a b)
    (before after : List α) : List.Forall₂ R (before ++ a :: after) (before ++ b :: after) := by
  induction before with
  | nil => exact .cons h (List.forall₂_same.2 fun a _ => hself a)
  | cons head rest ih => exact .cons (hself head) ih

end Position

/-- Respelled values are read alike. -/
theorem Respelled.same {limit : Int} {position : Position} {v w : Value} (h : Respelled position v w)
    (levels : Nat) : position.Same limit levels v w := by
  induction h generalizing levels with
  | refl position v => exact .refl position v
  | symm _ ih => exact (ih levels).symm
  | trans _ _ ih ih' => exact (ih levels).trans (ih' levels)
  | spelling h => exact h.same
  | part before after hpart hfirst _ ih => exact Position.same_at hpart hfirst ih levels
  | property before after name _ ih =>
    refine Node.keysLike_map
      (Position.forall₂_at (fun entry => ⟨rfl, ?_⟩) ⟨rfl, (ih levels).2⟩ before after)
    exact Node.read_steady limit levels entry.2
  | item before after _ ih =>
    exact .inr ⟨_, _, rfl, rfl, Position.forall₂_at (Position.Same.refl _) (ih levels) before after⟩
  | tupleItem before after _ ih =>
    exact .inr ⟨_, _, rfl, rfl, Position.forall₂_at (Position.Same.refl _) (ih levels) before after⟩
  | bare hbare _ ih =>
    obtain ⟨hhead, hnode⟩ := ih levels
    intro path path'
    rw [Spelling.readMatch_bare hbare, Spelling.readMatch_bare (hhead.isBare_eq ▸ hbare)]
    exact Spelling.plainMember_like hnode path path'
  | conditional hguard _ ih =>
    obtain ⟨hhead, hguardLike⟩ := ih levels
    rcases hhead with rfl | ⟨_, raw', hmap, rfl, htype, hschema⟩
    · exact memberLike_self (Node.read_steady limit levels) _
    · cases hmap
      intro path path'
      rw [Spelling.readMatch_guard hguard.1 hguard.2,
        Spelling.readMatch_guard (htype ▸ hguard.1) (hschema ▸ hguard.2)]
      exact withoutPaths_bind (hguardLike path path') fun _ _ h =>
        withoutPaths_ok (congrArg Sum.inr h)
  | description hdescription _ ih =>
    obtain ⟨hhead, hnode⟩ := ih levels
    exact testLike_of_nodeLike hdescription (hhead.isDescription_eq ▸ hdescription) hnode

/-! ## Outcomes of compiling, up to paths -/

def Cause.withoutPaths : Cause → Cause
  | .conflict name _ => .conflict name .root
  | cause => cause

def Failure.withoutPaths : Failure → Failure
  | .rejected e => .rejected ⟨e.cause.withoutPaths, .root⟩
  | .defect d => .defect d

def Diagnostic.withoutPath (d : Diagnostic) : Diagnostic := { d with path := .root }

def Declaration.withoutPath (d : Declaration) : Declaration := { d with path := .root }

/-- The result of a compilation without the paths in its notes. -/
def Result.withoutPaths (r : Result) : Result :=
  { r with diagnostics := r.diagnostics.map Diagnostic.withoutPath }

theorem Failure.ofError_withoutPaths {e e' : CompileError} (h : e.cause = e'.cause) :
    (Failure.ofError e).withoutPaths = (Failure.ofError e').withoutPaths := by
  obtain ⟨cause, path⟩ := e
  obtain ⟨cause', path'⟩ := e'
  obtain rfl : cause = cause' := h
  unfold ofError
  cases cause.isSpelled <;> rfl

/-- The outcome of a compilation without the paths in it. -/
def Compiler.outcomeWithoutPaths : Written Result → Written Result
  | .ok r => .ok r.withoutPaths
  | .error failure => .error failure.withoutPaths

theorem Declarations.find?_withoutPath (d : Declarations) (name : String) :
    (d.entries.map Declaration.withoutPath).find? (fun entry => entry.name == name) =
      (d.find? name).map Declaration.withoutPath := by
  rw [Declarations.find?, List.find?_map]
  rfl

namespace Writing

/-- Two runs are the same up to paths. -/
def Comparison.upToPaths : Comparison where
  progress p p' :=
    p.declared.entries.map Declaration.withoutPath = p'.declared.entries.map Declaration.withoutPath ∧
      p.notes.map Diagnostic.withoutPath = p'.notes.map Diagnostic.withoutPath
  failures failure failure' := failure.withoutPaths = failure'.withoutPaths
  apart := False
  refl _ := rfl
  rejected _ _ _ := rfl
  mixed h := h.elim
  note := by
    intro p p' h notice path path'
    refine ⟨h.1, ?_⟩
    simp only [List.map_append, h.2, List.map_cons, List.map_nil, Diagnostic.withoutPath]
  declare := by
    intro p p' h name body path path'
    have hfind : (p.declared.find? name).map Declaration.withoutPath =
        (p'.declared.find? name).map Declaration.withoutPath := by
      rw [← Declarations.find?_withoutPath, ← Declarations.find?_withoutPath, h.1]
    unfold Writing.declare Declarations.declare
    rcases option_map_eq hfind with ⟨hnone, hnone'⟩ | ⟨first, first', hfirst, hfirst', hsame⟩
    · rw [hnone, hnone']
      refine ⟨rfl, ?_, h.2⟩
      simp only [List.map_append, h.1, List.map_cons, List.map_nil, Declaration.withoutPath]
    · have hbody := congrArg Declaration.body hsame
      simp only [Declaration.withoutPath] at hbody
      simp only [hfirst, hfirst', hbody]
      by_cases htext : first'.body.text = body.text
      · simp only [if_pos htext]
        exact ⟨rfl, h⟩
      · simp only [if_neg htext]
        rfl

end Writing

namespace Compiler

theorem items_of_withoutPath {d d' : Declarations}
    (h : d.entries.map Declaration.withoutPath = d'.entries.map Declaration.withoutPath) :
    d.items = d'.items ∧ d.names = d'.names ∧ ∀ name, d.contains name = d'.contains name := by
  have hmap : ∀ {α : Type} (f : Declaration → α), (∀ entry, f entry.withoutPath = f entry) →
      d.entries.map f = d'.entries.map f := by
    intro α f hf
    simpa only [List.map_map, Function.comp_def, hf] using congrArg (List.map f) h
  refine ⟨hmap _ fun _ => rfl, hmap _ fun _ => rfl, fun name => ?_⟩
  have hfind := (Declarations.find?_withoutPath d name).symm.trans
    ((congrArg _ h).trans (Declarations.find?_withoutPath d' name))
  simpa only [Declarations.contains, Option.isSome_map] using congrArg Option.isSome hfind

theorem compileNode_withoutPaths (c : Compiler) {n m : Node} (h : n.withoutPaths = m.withoutPaths) :
    outcomeWithoutPaths (c.compileNode n) = outcomeWithoutPaths (c.compileNode m) := by
  obtain ⟨-, hn⟩ := Node.flags_of_withoutPaths h
  have hrun : Writing.Comparison.upToPaths.Relates (Writing.write c.setting c.options.maxDepth n)
      (Writing.write c.setting c.options.maxDepth m) := Writing.write_related c.setting (.inl rfl) h
  have hends := hrun {} {} ⟨rfl, rfl⟩
  unfold compileNode
  cases hw : Writing.write c.setting c.options.maxDepth n {} with
  | error failure =>
    cases hw' : Writing.write c.setting c.options.maxDepth m {} with
    | error failure' =>
      rw [hw, hw'] at hends
      exact congrArg Except.error hends
    | ok r' =>
      rw [hw, hw'] at hends
      exact hends.elim
  | ok r =>
    cases hw' : Writing.write c.setting c.options.maxDepth m {} with
    | error failure' =>
      rw [hw, hw'] at hends
      exact hends.elim
    | ok r' =>
      rw [hw, hw'] at hends
      obtain ⟨top, progress⟩ := r
      obtain ⟨top', progress'⟩ := r'
      obtain ⟨rfl, hdeclared, hnotes⟩ := hends
      obtain ⟨hitems, hnames, hcontains⟩ := items_of_withoutPath hdeclared
      have htop : topName n top progress.declared = topName m top progress'.declared := by
        simp only [topName, hn.name, hcontains]
      have hresult : Result.withoutPaths
            ⟨Listing.text c.options top progress.declared (topName n top progress.declared),
              progress.declared.names, progress.notes⟩ =
          Result.withoutPaths
            ⟨Listing.text c.options top progress'.declared (topName m top progress'.declared),
              progress'.declared.names, progress'.notes⟩ := by
        simp only [Result.withoutPaths, Listing.text, Listing.blocks, hitems, htop, hnames, hnotes]
      exact congrArg Except.ok hresult

/-- Spelling does not matter. Two descriptions that differ in their spelling only have the same code,
the same declarations and the same notes, or fail for the same reason, up to paths. -/
theorem compile_respelled (c : Compiler) {raw raw' : Value} (h : Respelled .node raw raw') :
    outcomeWithoutPaths (c.compile (.tree raw)) = outcomeWithoutPaths (c.compile (.tree raw')) := by
  have hread : (Node.ofValue c.options.maxDepth raw).withoutPaths Node.withoutPaths =
      (Node.ofValue c.options.maxDepth raw').withoutPaths Node.withoutPaths :=
    (h.same _).2 .root .root
  simp only [compile, toNode]
  cases hn : Node.ofValue c.options.maxDepth raw with
  | error e =>
    cases hm : Node.ofValue c.options.maxDepth raw' with
    | error e' =>
      rw [hn, hm] at hread
      have hcause : e.cause = e'.cause := Except.error.inj hread
      exact congrArg Except.error (Failure.ofError_withoutPaths hcause)
    | ok m =>
      rw [hn, hm] at hread
      cases hread
  | ok n =>
    cases hm : Node.ofValue c.options.maxDepth raw' with
    | error e =>
      rw [hn, hm] at hread
      cases hread
    | ok m =>
      rw [hn, hm] at hread
      exact compileNode_withoutPaths c (Except.ok.inj hread)

/-- Alternatives with a nested integer and a string, in two spellings. -/
theorem compile_respelled_alternatives :
    let integer : Value := .map [(.str "type", .str "number"),
      (.str "flags", .map [(.str "integer", .bool true)])]
    let integer' : Value := .map [(.str "type", .str "number"),
      (.str "rules", .list [.map [(.str "name", .str "integer")]])]
    let raw : Value := .map [(.str "type", .str "alternatives"),
      (.str "matches", .list [.map [(.str "schema", integer)], .map [(.str "type", .str "boolean")]])]
    let raw' : Value := .map [(.str "type", .str "alternatives"),
      (.str "matches", .list [integer', .map [(.str "type", .str "boolean")]])]
    let c : Compiler := {}
    Respelled .node raw raw' ∧
      outcomeWithoutPaths (c.compile (.tree raw)) = outcomeWithoutPaths (c.compile (.tree raw')) ∧
      c.compile (.tree raw') =
        .ok { code := "z.union([z.number().int(), z.boolean()])", declarations := [],
              diagnostics := [] } := by
  intro integer integer' raw raw' c
  have hbeside : ∀ (name : String), name ∉ ["flags", "rules"] →
      Entries.get? [(.str "type", .str "number"), (.str "flags", .map [(.str "integer", .bool true)])]
        name =
      Entries.get? [(.str "type", .str "number"),
        (.str "rules", .list [.map [(.str "name", .str "integer")]])] name := by
    intro name hname
    obtain ⟨hflags, hrules⟩ : name ≠ "flags" ∧ name ≠ "rules" := by simpa using hname
    simp [Entries.get?, Value.isText, hflags.symm, hrules.symm]
  have hflags : Entries.SameBeside ["integer"] [(.str "integer", .bool true)] [] := by
    intro name hname
    have hne : "integer" ≠ name := fun h => hname (List.mem_singleton.2 h.symm)
    simp [Entries.get?, Value.isText, hne]
  have hinteger : Respelled .node integer integer' :=
    .spelling (.integer hbeside rfl rfl hflags rfl rfl (by simp) rfl rfl (.inl rfl))
  have hmember : Respelled .member (.map [(.str "schema", integer)]) integer' :=
    .trans (.spelling (.schema rfl rfl)) (.bare rfl hinteger)
  have h : Respelled .node raw raw' :=
    .part [(.str "type", .str "alternatives")] [] rfl rfl
      (.item [] [.map [(.str "type", .str "boolean")]] hmember)
  exact ⟨h, compile_respelled c h, rfl⟩

end Compiler

end Schemata
