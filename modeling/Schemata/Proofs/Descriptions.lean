import Mathlib.Data.List.Forall2
import Mathlib.Data.List.ReduceOption
import Schemata.Node.Reading
import Schemata.Proofs.Outcome
import Schemata.Proofs.Parts
/-!
The descriptions inside a description.

A description holds other descriptions one level below it: its properties, its items and members, and
the tests and branches of its conditionals. `Value.inner` lists them without reading anything. The
readers are then followed once, and what they give was read from these descriptions, in order, apart
from conditions that compare with values. Of the branches for the case that no test holds a
conditional reads all and keeps the last one, so a description may be read and leave no node behind.

Component: the reader of conditionals and of nodes, `Guard.read` and `Node.read`. Main results:
- `Guard.Origin` — what a conditional was read from, case by case;
- `lastBranch_origin` — the last branch that is there comes from the last description that is there.
-/

namespace Schemata

/-! ## One level below -/

namespace Entries

/-- The value under a key, unless there is none or it is null. -/
def given? (entries : Entries) (name : String) : Option Value :=
  match entries.field name with
  | .null => none
  | v => some v

/-- The items of the sequence under a key; none if there is no sequence. -/
def itemsAt (entries : Entries) (name : String) : List Value :=
  ((entries.get? name).bind Value.items?).getD []

end Entries

/-- The entries of a map; none if there is no map. -/
def Value.entriesOf (v : Value) : Entries := v.entries?.getD []

namespace Case

/-- The test of a case, if it is a description. -/
def describedTest? (raw : Entries) : Option Value :=
  (raw.get? "is" <|> raw.get? "not").filter isDescription

/-- The descriptions in a case: its test, if that is one, and its branch. -/
def inner (raw : Entries) : List Value := (describedTest? raw).toList ++ (raw.given? "then").toList

end Case

namespace Guard

/-- The cases of a conditional: those of its switch, or the conditional itself. -/
def rawCases (raw : Entries) : List Entries :=
  match raw.get? "switch" with
  | some switch => (switch.items?.getD []).map Value.entriesOf
  | none => [raw]

/-- What the cases of a switch say for the case that no test holds. -/
def switchFallbacks (raw : Entries) : List (Option Value) :=
  match raw.get? "switch" with
  | some switch => (switch.items?.getD []).map fun case => case.entriesOf.given? "otherwise"
  | none => []

/-- The branches for the case that no test holds, in the order in which they are read. -/
def fallbacks (raw : Entries) : List Value :=
  (switchFallbacks raw ++ [raw.given? "otherwise"]).reduceOption

def inner (raw : Entries) : List Value := (rawCases raw).flatMap Case.inner ++ fallbacks raw

/-- The descriptions in a conditional that nodes are kept of. -/
def keptInner (raw : Entries) : List Value :=
  (rawCases raw).flatMap Case.inner ++ (fallbacks raw).getLast?.toList

theorem mem_inner {raw : Entries} {v : Value} :
    v ∈ inner raw ↔ v ∈ keptInner raw ∨ v ∈ (fallbacks raw).dropLast := by
  have hsplit : v ∈ fallbacks raw ↔
      v ∈ (fallbacks raw).dropLast ∨ v ∈ (fallbacks raw).getLast?.toList := by
    rcases List.eq_nil_or_concat (fallbacks raw) with hnil | ⟨front, last, hfront⟩
    · simp [hnil]
    · simp [hfront]
  simp only [inner, keptInner, List.mem_append, hsplit]
  tauto

end Guard

namespace Node

/-- The description of a member of alternatives, if the member is a plain one. -/
def plainMember? (raw : Value) : Option Value :=
  match raw.entriesOf.get? "schema" with
  | some schema => some schema
  | none => if raw.entriesOf.has "type" then some raw else none

def rawKeys (entries : Entries) : Entries := (entries.get? "keys").elim [] Value.entriesOf

/-- The descriptions of the properties, the items and the plain members. -/
def rawContent (entries : Entries) : List Value :=
  (rawKeys entries).map Prod.snd ++ entries.itemsAt "items"
    ++ (entries.itemsAt "matches").filterMap plainMember?

/-- The conditionals: members that are not plain, and those under `whens`. -/
def rawGuards (entries : Entries) : List Value :=
  (entries.itemsAt "matches").filter (fun member => (plainMember? member).isNone)
    ++ entries.itemsAt "whens"

end Node

namespace Value

def inner (raw : Value) : List Value :=
  Node.rawContent raw.entriesOf
    ++ (Node.rawGuards raw.entriesOf).flatMap fun guard => Guard.inner guard.entriesOf

/-- The descriptions one level below that nodes are kept of. -/
def keptInner (raw : Value) : List Value :=
  Node.rawContent raw.entriesOf
    ++ (Node.rawGuards raw.entriesOf).flatMap fun guard => Guard.keptInner guard.entriesOf

/-- The descriptions one level below whose place another one takes: branches for the case that no
test holds, apart from the last one of each conditional. -/
def replacedInner (raw : Value) : List Value :=
  (Node.rawGuards raw.entriesOf).flatMap fun guard => (Guard.fallbacks guard.entriesOf).dropLast

theorem mem_inner {raw v : Value} : v ∈ raw.inner ↔ v ∈ raw.keptInner ∨ v ∈ raw.replacedInner := by
  simp only [inner, keptInner, replacedInner, List.mem_append, List.mem_flatMap, Guard.mem_inner]
  constructor
  · rintro (h | ⟨guard, hguard, h | h⟩)
    · exact .inl (.inl h)
    · exact .inl (.inr ⟨guard, hguard, h⟩)
    · exact .inr ⟨guard, hguard, h⟩
  · rintro ((h | ⟨guard, hguard, h⟩) | ⟨guard, hguard, h⟩)
    · exact .inl h
    · exact .inr ⟨guard, hguard, .inl h⟩
    · exact .inr ⟨guard, hguard, .inr h⟩

end Value

/-! ## Lists that are read item by item -/

theorem Outcome.mapM_forall₂ {ε α β : Type} {f : α → Except ε β} {l : List α} {bs : List β}
    (h : l.mapM f = .ok bs) : List.Forall₂ (fun a b => f a = .ok b) l bs := by
  induction l generalizing bs with
  | nil => cases h; exact .nil
  | cons a l ih =>
    simp only [List.mapM_cons, bind_ok, pure_ok] at h
    obtain ⟨b, hb, bs', hbs, rfl⟩ := h
    exact .cons hb (ih hbs)

theorem readEach_forall₂ {α : Type} {read : Value → Path → Checked α} {items : List Value}
    {path : Path} {as : List α} (h : readEach read items path = .ok as) :
    List.Forall₂ (fun item a => ∃ path, read item path = .ok a) items as := by
  have hpairs := Outcome.mapM_forall₂ h
  have hitems : List.Forall₂ (fun item a => ∃ path, read item path = .ok a)
      (items.zipIdx.map Prod.fst) as :=
    List.forall₂_map_left_iff.2 (hpairs.imp fun pair a ha => ⟨path.index pair.2, ha⟩)
  rwa [List.zipIdx_map_fst] at hitems

theorem forall₂_mem_left {α β : Type} {R : α → β → Prop} {l : List α} {l' : List β}
    (h : List.Forall₂ R l l') : ∀ a ∈ l, ∃ b ∈ l', R a b := by
  induction h with
  | nil => simp
  | cons hab _ ih =>
    intro a ha
    rcases List.mem_cons.1 ha with rfl | ha
    · exact ⟨_, List.mem_cons_self, hab⟩
    · obtain ⟨b, hb, hR⟩ := ih a ha
      exact ⟨b, List.mem_cons_of_mem _ hb, hR⟩

theorem forall₂_mem_right {α β : Type} {R : α → β → Prop} {l : List α} {l' : List β}
    (h : List.Forall₂ R l l') : ∀ b ∈ l', ∃ a ∈ l, R a b :=
  forall₂_mem_left (List.Forall₂.flip (R := flip R) h)

theorem forall₂_toList {α β : Type} {R : α → β → Prop} {a : Option α} {b : Option β}
    (h : Option.Rel R a b) : List.Forall₂ R a.toList b.toList := by
  cases h with
  | none => exact .nil
  | some h => exact .cons h .nil

theorem asItems_ok {raw : Value} {path : Path} {items : List Value}
    (h : raw.asItems path = .ok items) : raw.items? = some items := by
  unfold Value.asItems at h
  split at h
  · cases h
    assumption
  · cases h

theorem asEntries_ok {raw : Value} {path : Path} {entries : Entries}
    (h : raw.asEntries path = .ok entries) : raw.entriesOf = entries := by
  unfold Value.asEntries at h
  split at h <;> cases h <;> rfl

/-! ## Checked values are scalars -/

/-- Whether a value has no parts and is not a string of bytes. -/
def Value.isScalar : Value → Bool
  | null => true
  | bool _ => true
  | int _ => true
  | float _ => true
  | decimal _ => true
  | str _ => true
  | _ => false

theorem Value.isScalar_of_isNumber {v : Value} (h : v.isNumber = true) : v.isScalar = true := by
  cases v with
  | int n => rfl
  | float x => rfl
  | decimal d => rfl
  | _ => cases h

theorem Value.isScalar_of_text {v : Value} (h : v.text?.isSome = true) : v.isScalar = true := by
  cases v with
  | str s => rfl
  | _ => cases h

theorem checkLiteral_scalar {v : Value} {path : Path} (h : checkLiteral false v path = .ok ()) :
    v.isScalar = true ∧ v.isFinite = true := by
  cases v with
  | float x =>
    simp only [checkLiteral] at h
    split at h
    · rename_i hfinite
      exact ⟨rfl, hfinite⟩
    · cases h
  | decimal d =>
    simp only [checkLiteral] at h
    split at h
    · rename_i hfinite
      exact ⟨rfl, hfinite⟩
    · cases h
  | bytes b => cases h
  | list items => cases h
  | tuple items => cases h
  | map entries =>
    simp only [checkLiteral] at h
    split at h <;> cases h
  | _ => exact ⟨rfl, rfl⟩

theorem checkLiterals_scalar {items : List Value} {path : Path} {i : Nat}
    (h : checkLiterals false items path i = .ok ()) :
    ∀ v ∈ items, v.isScalar = true ∧ v.isFinite = true := by
  induction items generalizing i with
  | nil => simp
  | cons item rest ih =>
    simp only [checkLiterals] at h
    obtain ⟨_, hitem, hrest⟩ := Outcome.bind_ok.1 h
    exact List.forall_mem_cons.2 ⟨checkLiteral_scalar hitem, ih hrest⟩

/-! ## Conditionals -/

/-- A description is read as a node. -/
def Gives (child : ChildReader) (v : Value) (m : Node) : Prop := ∃ path, child v path = .ok m

/-- A condition that no description was read for: the value is there, or it is one of some scalars. -/
inductive Case.Compares : Node → Prop where
  | present (path : Path) : Compares (presentCondition path)
  | listed {values : List Value} (path : Path)
    (h : ∀ v ∈ values, v.isScalar = true ∧ v.isFinite = true) :
    Compares (listedCondition values path)

/-- What a case was read from. -/
structure Case.Origin (child : ChildReader) (raw : Entries) (case : Case Node) : Prop where
  condition : (∃ v, describedTest? raw = some v ∧ Gives child v case.condition) ∨
    describedTest? raw = none ∧ Compares case.condition
  branch : Option.Rel (Gives child) (raw.given? "then") case.branch

/-- What a conditional was read from. -/
structure Guard.Origin (child : ChildReader) (raw : Entries) (g : Guard Node) : Prop where
  cases : List.Forall₂ (Case.Origin child) (rawCases raw) g.cases
  nonempty : g.cases ≠ []
  fallbacks : ∀ v ∈ fallbacks raw, ∃ m, Gives child v m
  otherwise : Option.Rel (Gives child) (Guard.fallbacks raw).getLast? g.otherwise
  branch : g.branches ≠ []

variable {child : ChildReader}

theorem readCondition_origin {raw : Option Value} {path : Path} {m : Node}
    (h : Case.readCondition child raw path = .ok m) :
    (∃ v, raw.filter Case.isDescription = some v ∧ Gives child v m) ∨
      raw.filter Case.isDescription = none ∧ Case.Compares m := by
  unfold Case.readCondition at h
  split at h
  · cases h
    exact .inr ⟨rfl, .present path⟩
  · rename_i v
    split at h
    · rename_i hv
      exact .inl ⟨v, by simp [Option.filter, hv], path, h⟩
    · rename_i hv
      refine .inr ⟨by simp [Option.filter, hv], ?_⟩
      split at h
      · obtain ⟨_, hcheck, hm⟩ := Outcome.bind_ok.1 h
        cases hm
        exact .listed path (checkLiterals_scalar hcheck)
      · obtain ⟨_, hcheck, hm⟩ := Outcome.bind_ok.1 h
        cases hm
        exact .listed path (by simpa using checkLiteral_scalar hcheck)

theorem readBranch_origin {entries : Entries} {name : String} {path : Path} {branch : Option Node}
    (h : Case.readBranch child (entries.field name) path = .ok branch) :
    Option.Rel (Gives child) (entries.given? name) branch := by
  unfold Case.readBranch at h
  unfold Entries.given?
  cases hfield : entries.field name with
  | null =>
    rw [hfield] at h
    cases h
    exact .none
  | _ =>
    rw [hfield] at h
    obtain ⟨node, hnode, hbranch⟩ := Outcome.bind_ok.1 h
    cases hbranch
    exact .some ⟨path, hnode⟩

theorem readTestKey_ok {raw : Entries} {path : Path} {negated : Bool} {key : String}
    (h : Case.readTestKey raw path = .ok (negated, key)) :
    raw.get? key = (raw.get? "is" <|> raw.get? "not") := by
  unfold Case.readTestKey at h
  cases his : raw.get? "is" with
  | none =>
    cases hnot : raw.get? "not" with
    | none =>
      simp only [his, hnot] at h
      cases h
      rw [his]
      rfl
    | some test =>
      simp only [his, hnot] at h
      cases h
      rw [hnot]
      rfl
  | some test =>
    -- With a test under `is`, that is the key in every case.
    simp only [his] at h
    split at h
    · cases h
      exact his
    · cases h
    · rename_i hnone _
      cases hnone
    · cases h
      exact his

theorem readCase_origin {raw : Entries} {path : Path} {case : Case Node}
    (h : Case.read child raw path = .ok case) : case.Origin child raw := by
  simp only [Case.read, Outcome.bind_ok, Outcome.pure_ok] at h
  obtain ⟨⟨negated, key⟩, hkey, condition, hcondition, branch, hbranch, rfl⟩ := h
  refine ⟨?_, readBranch_origin hbranch⟩
  rw [Case.describedTest?, ← readTestKey_ok hkey]
  exact readCondition_origin hcondition

theorem readSwitchCase_origin {raw : Value} {path : Path} {r : Case Node × Option Node}
    (h : Guard.readSwitchCase child raw path = .ok r) :
    r.1.Origin child raw.entriesOf ∧
      Option.Rel (Gives child) (raw.entriesOf.given? "otherwise") r.2 := by
  simp only [Guard.readSwitchCase, Outcome.bind_ok, Outcome.pure_ok] at h
  obtain ⟨entries, hentries, case, hcase, otherwise, hotherwise, rfl⟩ := h
  obtain rfl := asEntries_ok hentries
  exact ⟨readCase_origin hcase, readBranch_origin hotherwise⟩

theorem readCases_origin {raw : Entries} {path : Path} {r : List (Case Node) × Option Node}
    (h : Guard.readCases child raw path = .ok r) :
    List.Forall₂ (Case.Origin child) (Guard.rawCases raw) r.1 ∧ r.1 ≠ [] ∧
      ∃ branches, r.2 = Guard.lastBranch branches ∧
        List.Forall₂ (Option.Rel (Gives child)) (Guard.switchFallbacks raw) branches := by
  unfold Guard.readCases at h
  unfold Guard.rawCases Guard.switchFallbacks
  cases hswitch : raw.get? "switch" with
  | none =>
    rw [hswitch] at h
    obtain ⟨case, hcase, h⟩ := Outcome.bind_ok.1 h
    cases h
    exact ⟨.cons (readCase_origin hcase) .nil, by simp, [], rfl, .nil⟩
  | some switch =>
    rw [hswitch] at h
    obtain ⟨items, hitems, h⟩ := Outcome.bind_ok.1 h
    obtain ⟨cases, hcases, h⟩ := Outcome.bind_ok.1 h
    have hread := readEach_forall₂ hcases
    simp only [asItems_ok hitems, Option.getD_some]
    split at h
    · cases h
    · rename_i hempty
      cases h
      refine ⟨?_, by simpa using hempty, cases.map Prod.snd, rfl, ?_⟩
      · refine List.forall₂_map_left_iff.2 (List.forall₂_map_right_iff.2 (hread.imp ?_))
        rintro item r ⟨path, hr⟩
        exact (readSwitchCase_origin hr).1
      · refine List.forall₂_map_left_iff.2 (List.forall₂_map_right_iff.2 (hread.imp ?_))
        rintro item r ⟨path, hr⟩
        exact (readSwitchCase_origin hr).2

/-- The last branch that is there comes from the last description that is there. -/
theorem lastBranch_origin {R : Value → Node → Prop} {raws : List (Option Value)}
    {branches : List (Option Node)} (h : List.Forall₂ (Option.Rel R) raws branches) :
    Option.Rel R raws.reduceOption.getLast? (Guard.lastBranch branches) := by
  -- For the induction what was kept so far has to be anything.
  have hfold : ∀ (last : Option Value) (last' : Option Node), Option.Rel R last last' →
      Option.Rel R (raws.reduceOption.getLast? <|> last)
        (branches.foldl (fun last branch => branch <|> last) last') := by
    induction h with
    | nil => exact fun last last' hlast => hlast
    | @cons raw branch raws branches hbranch _ ih =>
      intro last last' hlast
      rw [List.foldl_cons]
      cases hbranch with
      | none => exact ih last last' hlast
      | @some v m hvm =>
        have hnext := ih (some v) (some m) (.some hvm)
        rw [List.reduceOption_cons_of_some, List.getLast?_cons]
        cases hrest : raws.reduceOption.getLast? with
        | none =>
          rw [hrest] at hnext
          exact hnext
        | some w =>
          rw [hrest] at hnext
          exact hnext
  have hnone := hfold none none .none
  rwa [Option.orElse_eq_orElse, Option.orElse_eq_or, Option.or_none] at hnone

theorem lastBranch_append (branches : List (Option Node)) (own : Option Node) :
    Guard.lastBranch (branches ++ [own]) = (own <|> Guard.lastBranch branches) := by
  simp [Guard.lastBranch]

theorem readGuard_origin {raw : Value} {path : Path} {g : Guard Node}
    (h : Guard.read child raw path = .ok g) : g.Origin child raw.entriesOf := by
  simp only [Guard.read, Outcome.bind_ok] at h
  obtain ⟨entries, hentries, reference, -, ⟨cases, fallback⟩, hcases, own, hown, h⟩ := h
  obtain rfl := asEntries_ok hentries
  obtain ⟨hcases, hnonempty, branches, hfallback, hbranches⟩ := readCases_origin hcases
  obtain rfl : fallback = Guard.lastBranch branches := hfallback
  have hown := readBranch_origin hown
  have hall : List.Forall₂ (Option.Rel (Gives child))
      (Guard.switchFallbacks raw.entriesOf ++ [raw.entriesOf.given? "otherwise"])
      (branches ++ [own]) := List.rel_append hbranches (.cons hown .nil)
  split at h
  · cases h
  · rename_i hbranch
    cases h
    refine ⟨hcases, hnonempty, fun v hv => ?_, ?_, fun hnil => hbranch ?_⟩
    · rw [Guard.fallbacks, List.reduceOption_mem_iff] at hv
      obtain ⟨b, -, hb⟩ := forall₂_mem_left hall _ hv
      cases hb with
      | some hb => exact ⟨_, hb⟩
    · have hlast := lastBranch_origin hall
      rwa [lastBranch_append] at hlast
    · obtain ⟨hthen, hotherwise⟩ := List.append_eq_nil_iff.1 hnil
      have hnone : (own <|> Guard.lastBranch branches) = none := Option.toList_eq_nil_iff.1 hotherwise
      have hthen : ∀ c ∈ cases, c.branch = none := List.filterMap_eq_nil_iff.1 hthen
      show ((own <|> Guard.lastBranch branches).isNone && cases.all fun c => c.branch.isNone) = true
      rw [hnone]
      simpa using hthen

namespace Guard.Origin

variable {raw : Entries} {g : Guard Node} (h : g.Origin child raw)
include h

theorem branches_gives : ∀ m ∈ g.branches, ∃ v ∈ keptInner raw, Gives child v m := by
  intro m hm
  rcases List.mem_append.1 hm with hm | hm
  · obtain ⟨case, hcase, hbranch⟩ := List.mem_filterMap.1 hm
    obtain ⟨entries, hentries, horigin⟩ := forall₂_mem_right h.cases case hcase
    obtain ⟨v, hv, hgives⟩ := forall₂_mem_right (forall₂_toList horigin.branch) m (by simp [hbranch])
    refine ⟨v, List.mem_append_left _ (List.mem_flatMap.2 ⟨entries, hentries, ?_⟩), hgives⟩
    exact List.mem_append_right _ hv
  · obtain ⟨v, hv, hgives⟩ := forall₂_mem_right (forall₂_toList h.otherwise) m hm
    exact ⟨v, List.mem_append_right _ hv, hgives⟩

theorem conditions_gives :
    ∀ m ∈ g.conditions, Case.Compares m ∨ ∃ v ∈ keptInner raw, Gives child v m := by
  intro m hm
  obtain ⟨case, hcase, rfl⟩ := List.mem_map.1 hm
  obtain ⟨entries, hentries, horigin⟩ := forall₂_mem_right h.cases case hcase
  rcases horigin.condition with ⟨v, hv, hgives⟩ | ⟨-, hcompares⟩
  · refine .inr ⟨v, List.mem_append_left _ (List.mem_flatMap.2 ⟨entries, hentries, ?_⟩), hgives⟩
    exact List.mem_append_left _ (by simp [hv])
  · exact .inl hcompares

end Guard.Origin

end Schemata
