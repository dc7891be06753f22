import Mathlib.Data.List.Perm.Basic
import Schemata.Proofs.Location
import Schemata.Proofs.PathText
import Schemata.Proofs.Reading
/-!
The paths of the nodes of a description.

Every reader is followed once, with what it reports errors at and where the nodes that it gives
stand. The parts of a node stand below it, and no two of them on the same way down. A node that was
read therefore stands at the map it was read from, and no other node has the same path.

Component: the reader of nodes, `Node.read`, and the paths it gives. Main results:
- `Node.read_points` — errors point into the description, and nodes stand where they were read from;
- `Node.sub_inj` — different positions have different paths;
- `ofValue_located` — both for whole descriptions.
-/

namespace Schemata

/-! ## Parts in order -/

def Case.parts (c : Case Node) : List Node := c.condition :: c.branch.toList

def Guard.parts (g : Guard Node) : List Node := g.cases.flatMap Case.parts ++ g.otherwise.toList

/-- All parts of a node: its content, and the parts of its conditionals. -/
def Node.parts (n : Node) : List Node := n.content ++ n.guards.flatMap Guard.parts

/-- The node at a position, given by the place of a part in the node above, on every level. -/
def Node.sub? : Node → List Nat → Option Node
  | n, [] => some n
  | n, i :: rest => n.parts[i]?.bind fun m => sub? m rest

theorem Guard.mem_parts {g : Guard Node} {m : Node} :
    m ∈ g.parts ↔ m ∈ g.branches ∨ m ∈ g.conditions := by
  simp only [parts, branches, conditions, Case.parts, List.mem_append, List.mem_flatMap,
    List.mem_cons, Option.mem_toList, List.mem_filterMap, List.mem_map]
  grind

theorem Node.mem_parts {n m : Node} :
    m ∈ n.parts ↔ m ∈ n.content ∨ m ∈ n.branches ∨ m ∈ n.conditions := by
  simp only [parts, branches, conditions, List.mem_append, List.mem_flatMap, Guard.mem_parts]
  grind

/-! ## Ways that part -/

/-- Neither list of steps is the beginning of the other. -/
def Apart (a b : List Step) : Prop := ¬ a <+: b ∧ ¬ b <+: a

namespace Apart

variable {a b a' b' p : List Step}

theorem symm (h : Apart a b) : Apart b a := ⟨h.2, h.1⟩

theorem ne (h : Apart a b) : a ≠ b := by
  rintro rfl
  exact h.1 (List.prefix_refl a)

/-- Ways that have parted do not meet again. -/
theorem extend (h : Apart a b) (ha : a <+: a') (hb : b <+: b') : Apart a' b' := by
  refine ⟨fun hab => ?_, fun hba => ?_⟩
  · rcases List.prefix_or_prefix_of_prefix (ha.trans hab) hb with hp | hp
    · exact h.1 hp
    · exact h.2 hp
  · rcases List.prefix_or_prefix_of_prefix ha (hb.trans hba) with hp | hp
    · exact h.1 hp
    · exact h.2 hp

theorem of_ne {s t : Step} (h : s ≠ t) (ha : p ++ [s] <+: a) (hb : p ++ [t] <+: b) : Apart a b := by
  have hne : ∀ {s t : Step}, s ≠ t → ¬ p ++ [s] <+: p ++ [t] := by
    intro s t hst hp
    exact hst (by simpa using hp.eq_of_length (by simp))
  exact extend ⟨hne h, hne h.symm⟩ ha hb

end Apart

/-- Nodes that stand at or below some place, on ways of their own. -/
structure Laid (p : List Step) (ms : List Node) : Prop where
  under : ∀ m ∈ ms, m.path.base = "" ∧ p <+: m.path.steps
  apart : ms.Pairwise fun a b => Apart a.path.steps b.path.steps

namespace Laid

variable {p : List Step} {as bs : List Node}

theorem nil : Laid p [] := ⟨by simp, .nil⟩

theorem single {m : Node} {path : Path} (h : m.path = path) (hbase : path.base = "") :
    Laid path.steps [m] :=
  ⟨by simp [h, hbase], List.pairwise_singleton _ _⟩

theorem sublist (h : Laid p bs) (hs : as.Sublist bs) : Laid p as :=
  ⟨fun m hm => h.under m (hs.subset hm), h.apart.sublist hs⟩

theorem perm (h : Laid p bs) (hp : as.Perm bs) : Laid p as :=
  ⟨fun m hm => h.under m (hp.subset hm), h.apart.perm hp.symm fun hab => hab.symm⟩

theorem apart_of_ne {i j : Nat} {a b : Node} (h : Laid p as) (ha : as[i]? = some a)
    (hb : as[j]? = some b) (hij : i ≠ j) : Apart a.path.steps b.path.steps := by
  obtain ⟨hi, rfl⟩ := List.getElem?_eq_some_iff.1 ha
  obtain ⟨hj, rfl⟩ := List.getElem?_eq_some_iff.1 hb
  rcases Nat.lt_or_gt_of_ne hij with hlt | hgt
  · exact List.pairwise_iff_getElem.1 h.apart i j hi hj hlt
  · exact (List.pairwise_iff_getElem.1 h.apart j i hj hi hgt).symm

/-- Groups behind different steps. -/
theorem join {γ : Type} (groups : List γ) (step : γ → Step) (nodes : γ → List Node)
    (hsteps : (groups.map step).Nodup) (h : ∀ g ∈ groups, Laid (p ++ [step g]) (nodes g)) :
    Laid p (groups.flatMap nodes) := by
  constructor
  · intro m hm
    obtain ⟨g, hg, hm⟩ := List.mem_flatMap.1 hm
    obtain ⟨hbase, hsteps⟩ := (h g hg).under m hm
    exact ⟨hbase, (List.prefix_append p _).trans hsteps⟩
  · refine List.pairwise_flatMap.2 ⟨fun g hg => (h g hg).apart, ?_⟩
    refine (List.pairwise_map.1 hsteps).imp_of_mem fun hg hg' hne a ha b hb => ?_
    exact .of_ne hne ((h _ hg).under a ha).2 ((h _ hg').under b hb).2

/-- Groups behind different names. -/
theorem named {groups : List (String × List Node)} (hnames : (groups.map Prod.fst).Nodup)
    (h : ∀ g ∈ groups, Laid (p ++ [.key g.1]) g.2) : Laid p (groups.flatMap Prod.snd) := by
  refine join groups (fun g => .key g.1) _ ?_ h
  exact List.pairwise_map.2 ((List.pairwise_map.1 hnames).imp fun hne h => hne (Step.key.inj h))

/-- What stands behind a name does not stand in front of it. -/
theorem named_below {groups : List (String × List Node)}
    (h : ∀ g ∈ groups, Laid (p ++ [.key g.1]) g.2) :
    ∀ m ∈ groups.flatMap Prod.snd, m.path.steps ≠ p := by
  intro m hm heq
  obtain ⟨g, hg, hm⟩ := List.mem_flatMap.1 hm
  have hlength := ((h g hg).under m hm).2.length_le
  rw [heq, List.length_append, List.length_singleton] at hlength
  omega

/-- Groups behind the indices of a sequence. -/
theorem indexed {γ : Type} {l : List γ} {nodes : γ → List Node}
    (h : ∀ (i : Nat) g, l[i]? = some g → Laid (p ++ [.index i]) (nodes g)) :
    Laid p (l.flatMap nodes) := by
  have hflat : l.flatMap nodes = l.zipIdx.flatMap fun g => nodes g.1 := by
    conv => lhs; rw [← List.zipIdx_map_fst 0 l, List.flatMap_map]
  rw [hflat]
  refine join _ (fun g => .index g.2) _ ?_ fun g hg => ?_
  · have hnodup : (l.zipIdx.map Prod.snd).Nodup := by
      rw [List.zipIdx_map_snd]
      exact List.nodup_range'
    exact List.pairwise_map.2 ((List.pairwise_map.1 hnodup).imp fun hne h =>
      hne (Int.ofNat.inj (Step.index.inj h)))
  · exact h g.2 g.1 (List.mem_zipIdx_iff_getElem?.1 hg)

/-- The cases of a switch stand apart from one another, and so does the last branch they give. -/
theorem lastBranch {cases : List (Case Node × Option Node)}
    (h : ∀ (i : Nat) c, cases[i]? = some c → Laid (p ++ [.index i]) (c.1.parts ++ c.2.toList)) :
    Laid p ((cases.map Prod.fst).flatMap Case.parts ++
      (Guard.lastBranch (cases.map Prod.snd)).toList) := by
  have hall := (indexed h).perm (List.flatMap_append_perm cases _ _)
  refine hall.sublist (.append ?_ ?_)
  · rw [List.flatMap_map]
  · cases hlast : Guard.lastBranch (cases.map Prod.snd) with
    | none => exact List.nil_sublist _
    | some m =>
      obtain ⟨c, hc, hm⟩ := List.mem_map.1 (mem_of_lastBranch hlast)
      exact List.singleton_sublist.2 (List.mem_flatMap.2 ⟨c, hc, by simp [hm]⟩)

end Laid

open Checked

/-! ## References, flags and rules -/

section

variable {whole raw : Value} {path : Path} {entries : Entries}

theorem parse_points (h : path.IsNear whole) (key : String) :
    PointsInto whole (fun _ => True) (Reference.parse key path) := by
  simp only [Reference.parse]
  split
  · exact .of_ok trivial
  · exact .of_malformed _ h

theorem readObject_points (h : path.Holds whole entries) :
    PointsInto whole (fun _ => True) (Reference.readObject entries path) := by
  have hsegments : PointsInto whole (fun _ => True)
      (Reference.readSegments (entries.field "path") (path.key "path")) := by
    unfold Reference.readSegments
    split
    · exact .of_malformed _ (h.key_near _)
    · split
      · exact .of_ok trivial
      · exact .of_malformed _ (h.key_near _)
  have hancestor : PointsInto whole (fun _ => True)
      (Reference.readAncestor (entries.get? "ancestor") (path.key "ancestor")) := by
    unfold Reference.readAncestor
    split
    · exact .of_ok trivial
    · exact .of_ok trivial
    · exact .of_ok trivial
    · exact .of_malformed _ (h.key_near _)
  unfold Reference.readObject
  refine hsegments.bind fun segments _ => hancestor.bind fun ⟨scope, ancestor⟩ _ => ?_
  dsimp only
  split
  · exact .of_pure trivial
  · exact .of_pure trivial
  · exact .of_pure trivial
  · exact .of_pure trivial
  · exact .of_unsupported _ h.near

theorem readReference_points (h : path.Holds whole entries) :
    PointsInto whole (fun _ => True) (Guard.readReference entries path) := by
  have hread : ∀ {raw : Value} {path : Path}, path.LeadsTo whole raw →
      PointsInto whole (fun _ => True) (Reference.read raw path) := by
    intro raw path h
    unfold Reference.read
    split
    · exact parse_points h.near _
    · exact (asEntries_points h).bind fun entries hentries => readObject_points hentries
  unfold Guard.readReference
  split
  · rename_i href
    exact hread (h.get href)
  · rename_i hkey
    exact hread (h.get hkey)
  · exact .of_unsupported _ h.near

theorem readBoolean_points (h : path.Holds whole entries) (name : String) :
    PointsInto whole (fun _ => True) (Flags.readBoolean entries name path) := by
  unfold Flags.readBoolean
  split
  · exact .of_ok trivial
  · exact .of_ok trivial
  · exact .of_malformed _ (h.key_near _)

theorem readText_points (h : path.Holds whole entries) (name : String) :
    PointsInto whole (fun _ => True) (Flags.readText entries name path) := by
  unfold Flags.readText
  split
  · exact .of_ok trivial
  · exact .of_ok trivial
  · exact .of_malformed _ (h.key_near _)

theorem readFlags_points (hwhole : whole.hasDistinctNames = true) (h : path.Holds whole entries)
    (kind : Kind) : PointsInto whole (fun _ => True) (Node.readFlags entries kind path) := by
  have hpresence : PointsInto whole (fun _ => True)
      (Flags.readPresence (entries.field "presence") (path.key "presence")) := by
    unfold Flags.readPresence
    split
    · exact .of_ok trivial
    · split
      · exact .of_ok trivial
      · exact .of_malformed _ (h.key_near _)
  have hdefault : PointsInto whole (fun _ => True)
      (Flags.readDefault (entries.get? "default") (path.key "default")) := by
    unfold Flags.readDefault
    split
    · exact .of_ok trivial
    · rename_i value hget
      exact (checkLiteral_points hwhole (h.get hget)).bind fun _ _ => .of_pure trivial
  have hmatch : PointsInto whole (fun _ => True)
      (Flags.checkMatchMode kind (entries.field "match") (path.key "match")) := by
    unfold Flags.checkMatchMode
    split
    · exact .of_unsupported _ (h.key_near _)
    · exact .of_ok trivial
  have hread : PointsInto whole (fun _ => True) (Flags.read kind entries path) :=
    hpresence.bind fun _ _ => hdefault.bind fun _ _ => (readBoolean_points h _).bind fun _ _ =>
      (readBoolean_points h _).bind fun _ _ => hmatch.bind fun _ _ =>
        (readText_points h _).bind fun _ _ => (readText_points h _).bind fun _ _ => .of_pure trivial
  exact hread.bind fun _ _ => .of_pure trivial

/-- Without flags there is nothing to report, wherever they would stand. -/
theorem readFlags_nil (kind : Kind) (path : Path) :
    ∃ flags, Node.readFlags [] kind path = .ok flags := by
  simp [Node.readFlags, Flags.read, Entries.field, Entries.get?, Flags.readPresence,
    Flags.readDefault, Flags.readBoolean, Flags.readText, Flags.checkMatchMode, Value.isNull,
    Outcome.bind_ok]

theorem readRule_points (h : path.LeadsTo whole raw) :
    PointsInto whole (fun _ => True) (Rule.read raw path) := by
  unfold Rule.read
  split
  · split
    · have hargs : ∀ raw, PointsInto whole (fun _ => True)
          (Rule.readArguments raw (path.key "args")) := by
        intro raw
        unfold Rule.readArguments
        split
        · exact .of_ok trivial
        · exact .of_ok trivial
        · exact .of_ok trivial
        · exact .of_ok trivial
        · exact .of_malformed _ (h.key_near _)
      exact (hargs _).bind fun _ _ => .of_pure trivial
    · exact .of_malformed _ h.near
  · exact .of_malformed _ h.near

theorem readAll_points (h : raw ≠ .null → path.LeadsTo whole raw) :
    PointsInto whole (fun _ => True) (Rule.readAll raw path) := by
  unfold Rule.readAll
  split
  · exact .of_ok trivial
  · rename_i hnull
    refine (asItems_points (h hnull)).bind fun items hitems => ?_
    exact (PointsInto.readEach (P := fun _ _ => True) fun i item hi =>
      readRule_points (hitems i item hi)).mono fun _ _ => trivial

end

/-! ## Conditionals -/

/-- A condition that stands for values to compare with, and not for a description. -/
structure Node.StandsForValues (whole : Value) (m : Node) : Prop where
  compares : Case.Compares m
  base : m.path.base = ""
  value : ∀ entries, whole.at? m.path.steps ≠ some (.map entries)

/-- A reader that points into a value, and gives nodes at the path it is given. -/
def ChildReader.Points (whole : Value) (G : Node → Prop) (child : ChildReader) : Prop :=
  ∀ {raw : Value} {path : Path}, path.LeadsTo whole raw →
    PointsInto whole (fun m => m.path = path ∧ G m) (child raw path)

/-- What is known of the parts of a case. -/
structure Case.Sound (whole : Value) (G : Node → Prop) (c : Case Node) : Prop where
  condition : G c.condition ∨ c.condition.StandsForValues whole
  branch : ∀ m, c.branch = some m → G m

/-- What is known of the parts of a conditional. -/
structure Guard.Sound (whole : Value) (G : Node → Prop) (g : Guard Node) : Prop where
  conditions : ∀ m ∈ g.conditions, G m ∨ m.StandsForValues whole
  branches : ∀ m ∈ g.branches, G m

section

variable {whole raw : Value} {path : Path} {entries : Entries} {child : ChildReader}
  {G : Node → Prop} (hwhole : whole.hasDistinctNames = true) (hchild : child.Points whole G)

include hwhole hchild

theorem readCondition_points {raw : Option Value} (hbase : path.base = "")
    (hraw : whole.at? path.steps = raw) :
    PointsInto whole (fun m => m.path = path ∧ (G m ∨ m.StandsForValues whole))
      (Case.readCondition child raw path) := by
  unfold Case.readCondition
  split
  · exact .of_ok ⟨rfl, .inr ⟨.present path, hbase, by simp [Case.presentCondition, hraw]⟩⟩
  · rename_i value
    have hleads : path.LeadsTo whole value := ⟨hbase, hraw⟩
    split
    · exact (hchild hleads).mono fun m hm => ⟨hm.1, .inl hm.2⟩
    · split
      · rename_i items hitems
        have hvalue : ∀ entries, some value ≠ some (Value.map entries) := by
          rintro entries ⟨⟩
          cases hitems
        have hcheck : PointsInto whole (fun _ => True) (checkLiterals false items path 0) :=
          checkLiterals_points hwhole fun j item hj => by simpa using hleads.index hitems hj
        refine hcheck.self.bind fun _ hok => .of_pure ⟨rfl, .inr ?_⟩
        exact ⟨.listed path (checkLiterals_scalar hok), hbase,
          fun entries => by rw [Case.listedCondition, hraw]; exact hvalue entries⟩
      · have hvalue : checkLiteral false value path = .ok () →
            ∀ entries, some value ≠ some (Value.map entries) := by
          rintro hok entries ⟨⟩
          simp only [checkLiteral] at hok
          split at hok <;> cases hok
        refine (checkLiteral_points hwhole hleads).self.bind fun _ hok => .of_pure ⟨rfl, .inr ?_⟩
        exact ⟨.listed path (by simpa using checkLiteral_scalar hok), hbase,
          fun entries => by rw [Case.listedCondition, hraw]; exact hvalue hok entries⟩

omit hwhole in
theorem readBranch_points (h : raw ≠ .null → path.LeadsTo whole raw) :
    PointsInto whole (fun branch => Laid path.steps branch.toList ∧ ∀ m, branch = some m → G m)
      (Case.readBranch child raw path) := by
  unfold Case.readBranch
  split
  · exact .of_ok ⟨.nil, by simp⟩
  · rename_i hnull
    have hleads := h hnull
    refine (hchild hleads).bind fun m hm => .of_pure ⟨?_, by simpa using hm.2⟩
    exact .single hm.1 hleads.base

theorem readCase_points (h : path.Holds whole entries) :
    PointsInto whole (fun c => c.Sound whole G ∧ ∀ others,
        Laid (path.key "otherwise").steps others → Laid path.steps (c.parts ++ others))
      (Case.read child entries path) := by
  have hkey : PointsInto whole (fun r => r.2 = "is" ∨ r.2 = "not")
      (Case.readTestKey entries path) := by
    unfold Case.readTestKey
    split
    · exact .of_ok (.inl rfl)
    · exact .of_malformed _ h.near
    · exact .of_ok (.inr rfl)
    · exact .of_ok (.inl rfl)
  unfold Case.read
  refine hkey.bind fun ⟨negated, key⟩ hkey => ?_
  refine .bind (readCondition_points hwhole hchild h.base (h.at?_key key)) fun c hc => ?_
  refine (readBranch_points hchild h.field).bind fun b hb => .of_pure ⟨⟨hc.2, hb.2⟩, ?_⟩
  intro others hothers
  have hcondition : Laid (path.key key).steps [c] := .single hc.1 h.base
  have hlaid : Laid path.steps
      ([(key, [c]), ("then", b.toList), ("otherwise", others)].flatMap Prod.snd) :=
    .named (by rcases hkey with rfl | rfl <;> simp) (by simpa using ⟨hcondition, hb.1, hothers⟩)
  simpa [Case.parts] using hlaid

theorem readSwitchCase_points (h : path.LeadsTo whole raw) :
    PointsInto whole (fun r => r.1.Sound whole G ∧ (∀ m, r.2 = some m → G m) ∧
        Laid path.steps (r.1.parts ++ r.2.toList))
      (Guard.readSwitchCase child raw path) := by
  unfold Guard.readSwitchCase
  refine (asEntries_points h).bind fun entries hentries => ?_
  refine (readCase_points hwhole hchild hentries).bind fun c hc => ?_
  refine (readBranch_points hchild hentries.field).bind fun b hb => ?_
  exact .of_pure ⟨hc.1, hb.2, hc.2 _ hb.1⟩

theorem readCases_points (h : path.Holds whole entries) :
    PointsInto whole (fun r => (∀ c ∈ r.1, c.Sound whole G) ∧ (∀ m, r.2 = some m → G m) ∧
        ∀ others, Laid (path.key "otherwise").steps others →
          Laid path.steps (r.1.flatMap Case.parts ++ r.2.toList ++ others))
      (Guard.readCases child entries path) := by
  unfold Guard.readCases
  split
  · rename_i switch hswitch
    refine (asItems_points (h.get hswitch)).bind fun items hitems => ?_
    refine (PointsInto.readEach fun i item hi =>
      readSwitchCase_points hwhole hchild (hitems i item hi)).bind fun cases hcases => ?_
    split
    · exact .of_malformed _ (h.get hswitch).near
    · refine .of_pure ⟨?_, ?_, fun others hothers => ?_⟩
      · intro c hc
        obtain ⟨r, hr, rfl⟩ := List.mem_map.1 hc
        obtain ⟨i, hi⟩ := List.mem_iff_getElem?.1 hr
        exact (hcases i r hi).1
      · intro m hm
        obtain ⟨r, hr, hrm⟩ := List.mem_map.1 (mem_of_lastBranch hm)
        obtain ⟨i, hi⟩ := List.mem_iff_getElem?.1 hr
        exact (hcases i r hi).2.1 m hrm
      · have hswitch := Laid.lastBranch fun i r hi => (hcases i r hi).2.2
        have hlaid : Laid path.steps ([("switch", _), ("otherwise", others)].flatMap Prod.snd) :=
          .named (by simp) (by simpa using ⟨hswitch, hothers⟩)
        simpa using hlaid
  · refine (readCase_points hwhole hchild h).bind fun c hc => ?_
    exact .of_pure ⟨by simpa using hc.1, by simp, by simpa using hc.2⟩

theorem readGuard_points (h : path.LeadsTo whole raw) :
    PointsInto whole (fun g => g.Sound whole G ∧ Laid path.steps g.parts)
      (Guard.read child raw path) := by
  unfold Guard.read
  refine (asEntries_points h).bind fun entries hentries => ?_
  refine (readReference_points hentries).bind fun reference _ => ?_
  refine (readCases_points hwhole hchild hentries).bind fun ⟨cases, fallback⟩ hcases => ?_
  refine (readBranch_points hchild hentries.field).bind fun own hown => ?_
  dsimp only
  split
  · exact .of_malformed _ h.near
  · refine .of_pure ⟨⟨?_, ?_⟩, ?_⟩
    · intro m hm
      obtain ⟨c, hc, rfl⟩ := List.mem_map.1 hm
      exact (hcases.1 c hc).condition
    · intro m hm
      rcases List.mem_append.1 hm with hm | hm
      · obtain ⟨c, hc, hbranch⟩ := List.mem_filterMap.1 hm
        exact (hcases.1 c hc).branch m hbranch
      · rw [Option.mem_toList] at hm
        cases own with
        | none => exact hcases.2.1 m hm
        | some b => exact hown.2 m hm
    · -- Only one of the two last branches is kept.
      refine (hcases.2.2 own.toList hown.1).sublist ?_
      cases own with
      | none => simp [Guard.parts]
      | some b => simp [Guard.parts]

/-! ## Nodes -/

omit hwhole hchild in
/-- Properties that were read one by one have the names of the entries. -/
theorem names_of_forall₂ {P : String × Node → Prop} {entries : Entries}
    {keys : List (String × Node)}
    (h : List.Forall₂ (fun entry key => entry.1 = .str key.1 ∧ P key) entries keys) :
    (entries.filterMap fun entry => entry.1.text?) = keys.map Prod.fst ∧ ∀ key ∈ keys, P key := by
  induction h with
  | nil => simp
  | cons hkey _ ih =>
    refine ⟨?_, List.forall_mem_cons.2 ⟨hkey.2, ih.2⟩⟩
    rw [List.filterMap_cons, hkey.1, List.map_cons, ← ih.1]
    rfl

theorem readKeys_points (h : path.LeadsTo whole raw) :
    PointsInto whole (fun keys => Laid path.steps ((keys.getD []).map Prod.snd) ∧
        ∀ key ∈ keys.getD [], G key.2)
      (Node.readKeys child raw path) := by
  unfold Node.readKeys
  split
  · exact .of_ok ⟨.nil, by simp⟩
  · refine (asEntries_points h).bind fun entries hentries => ?_
    rcases hentries with hmap | ⟨-, rfl⟩
    · let AtItsName (entry : Value × Value) (key : String × Node) : Prop :=
        entry.1 = .str key.1 ∧ key.2.path = path.key key.1 ∧ G key.2
      refine (PointsInto.mapM (P := AtItsName) fun entry hentry => ?_).bind fun keys hkeys =>
        .of_pure ?_
      · obtain ⟨key, value⟩ := entry
        dsimp only
        split
        · refine (hchild (entries_leadTo hwhole hmap _ _ hentry)).bind fun node hnode => ?_
          exact .of_pure ⟨rfl, hnode⟩
        · exact .of_malformed _ h.near
      obtain ⟨hnames, hkey⟩ := names_of_forall₂ hkeys
      have hnodup : (keys.map Prod.fst).Nodup := by
        have hdistinct := Value.hasDistinctNames_at? hwhole hmap.value
        rw [Value.hasDistinctNames] at hdistinct
        exact hnames ▸ Entries.names_nodup hdistinct
      have hlaid : Laid path.steps ((keys.map fun key => (key.1, [key.2])).flatMap Prod.snd) := by
        refine .named (by rwa [List.map_map]) fun g hg => ?_
        obtain ⟨key, hmem, rfl⟩ := List.mem_map.1 hg
        exact .single (hkey key hmem).1 h.base
      rw [List.flatMap_map, ← List.map_eq_flatMap] at hlaid
      exact ⟨hlaid, fun key hmem => (hkey key hmem).2⟩
    · exact .of_pure ⟨.nil, by simp⟩

omit hwhole in
theorem readItems_points (h : path.LeadsTo whole raw) :
    PointsInto whole (fun items => Laid path.steps items ∧ ∀ m ∈ items, G m)
      (Node.readItems child raw path) := by
  unfold Node.readItems
  refine (asItems_points h).bind fun values hvalues => ?_
  refine (PointsInto.readEach fun i item hi => hchild (hvalues i item hi)).mono fun items hitems => ?_
  constructor
  · have hlaid : Laid path.steps (items.flatMap fun m => [m]) :=
      .indexed fun i m hi => .single (hitems i m hi).1 h.base
    simpa using hlaid
  · intro m hm
    obtain ⟨i, hi⟩ := List.mem_iff_getElem?.1 hm
    exact (hitems i m hi).2

theorem readWhens_points (h : path.LeadsTo whole raw) :
    PointsInto whole (fun guards => Laid path.steps (guards.flatMap Guard.parts) ∧
        ∀ g ∈ guards, g.Sound whole G)
      (Node.readWhens child raw path) := by
  unfold Node.readWhens
  refine (asItems_points h).bind fun values hvalues => ?_
  refine (PointsInto.readEach fun i item hi =>
    readGuard_points hwhole hchild (hvalues i item hi)).mono fun guards hguards => ?_
  refine ⟨.indexed fun i g hi => (hguards i g hi).2, fun g hg => ?_⟩
  obtain ⟨i, hi⟩ := List.mem_iff_getElem?.1 hg
  exact (hguards i g hi).1

theorem readMatch_points (h : path.LeadsTo whole raw) :
    PointsInto whole (fun member => Sum.elim G (Guard.Sound whole G) member ∧
        Laid path.steps (Sum.elim (fun m => [m]) Guard.parts member))
      (Node.readMatch child raw path) := by
  unfold Node.readMatch
  split
  · split
    · rename_i schema hschema
      have hleads := h.key hschema
      refine (hchild hleads).bind fun m hm => .of_pure ⟨hm.2, ?_⟩
      obtain ⟨hunder, hapart⟩ := Laid.single hm.1 hleads.base
      exact ⟨fun m hm => ⟨(hunder m hm).1, (List.prefix_append _ _).trans (hunder m hm).2⟩, hapart⟩
    · split
      · exact (hchild h).bind fun m hm => .of_pure ⟨hm.2, .single hm.1 h.base⟩
      · exact (readGuard_points hwhole hchild h).bind fun g hg => .of_pure hg
  · exact .of_malformed _ h.near

omit hwhole hchild in
/-- Sorting the members into plain and conditional ones loses none of their parts. -/
theorem members_perm (members : List (Node ⊕ Guard Node)) :
    (members.filterMap Sum.getLeft? ++ (members.filterMap Sum.getRight?).flatMap Guard.parts).Perm
      (members.flatMap (Sum.elim (fun m => [m]) Guard.parts)) := by
  induction members with
  | nil => exact .refl _
  | cons member rest ih =>
    cases member with
    | inl m => simpa [List.filterMap_cons] using ih
    | inr g =>
      simp only [List.filterMap_cons, Sum.getLeft?_inr, Sum.getRight?_inr, List.flatMap_cons,
        Sum.elim_inr]
      exact List.perm_append_comm_assoc _ _ _ |>.trans (ih.append_left _)

theorem readMembers_points (h : path.LeadsTo whole (.map entries)) (kind : Kind) :
    PointsInto whole (fun r => Laid (path.key "matches").steps (r.1 ++ r.2.flatMap Guard.parts) ∧
        (∀ m ∈ r.1, G m) ∧ ∀ g ∈ r.2, g.Sound whole G)
      (Node.readMembers child entries kind path) := by
  unfold Node.readMembers
  split
  · rename_i raw hraw
    have hleads := h.key hraw
    unfold Node.readMatches
    refine (asItems_points hleads).bind fun items hitems => ?_
    refine (PointsInto.readEach fun i item hi =>
      readMatch_points hwhole hchild (hitems i item hi)).bind fun members hmembers => ?_
    have hsound : ∀ member ∈ members, Sum.elim G (Guard.Sound whole G) member := by
      intro member hmember
      obtain ⟨i, hi⟩ := List.mem_iff_getElem?.1 hmember
      exact (hmembers i member hi).1
    dsimp only
    split
    · exact .of_malformed _ hleads.near
    · split
      · exact .of_malformed _ hleads.near
      · refine .of_pure ⟨?_, fun m hm => ?_, fun g hg => ?_⟩
        · exact (Laid.indexed fun i member hi => (hmembers i member hi).2).perm (members_perm members)
        · obtain ⟨member, hmem, hleft⟩ := List.mem_filterMap.1 hm
          obtain rfl := Sum.getLeft?_eq_some_iff.1 hleft
          exact hsound _ hmem
        · obtain ⟨member, hmem, hright⟩ := List.mem_filterMap.1 hg
          obtain rfl := Sum.getRight?_eq_some_iff.1 hright
          exact hsound _ hmem
  · split
    · exact .of_malformed _ h.near
    · exact .of_ok ⟨.nil, by simp, by simp⟩

omit hchild hwhole in
theorem readMetas_points (h : path.Holds whole entries) :
    PointsInto whole (fun metas => ∀ entry ∈ metas, entry.2.Holds whole entry.1)
      (Node.readMetas entries path) := by
  have hlisted : PointsInto whole (fun metas => ∀ entry ∈ metas, entry.2.Holds whole entry.1)
      (Node.readListed (entries.field "metas") (path.key "metas")) := by
    unfold Node.readListed
    split
    · exact .of_ok (by simp)
    · rename_i hnull
      refine (asItems_points (h.field hnull)).bind fun items hitems => ?_
      refine (PointsInto.readEach (P := fun _ entry => entry.2.Holds whole entry.1)
        fun i item hi => ?_).mono fun metas hmetas entry hentry => ?_
      · exact (asEntries_points (hitems i item hi)).bind fun e he => .of_pure he
      · obtain ⟨i, hi⟩ := List.mem_iff_getElem?.1 hentry
        exact hmetas i entry hi
  rw [Node.readMetas_eq]
  refine hlisted.bind fun listed hlisted => ?_
  unfold Node.addMetadata
  split
  · exact .of_ok hlisted
  · rename_i hnull
    refine (asEntries_points (h.field hnull)).bind fun e he => .of_pure fun entry hentry => ?_
    rcases List.mem_append.1 hentry with hentry | hentry
    · exact hlisted entry hentry
    · rw [List.mem_singleton.1 hentry]
      exact he

omit hchild hwhole in
theorem lastName_points {metas : List (Entries × Path)}
    (h : ∀ entry ∈ metas, entry.2.Holds whole entry.1) (name : Option String) :
    PointsInto whole (fun _ => True) (Node.lastName metas name) := by
  induction metas generalizing name with
  | nil => exact .of_ok trivial
  | cons entry rest ih =>
    obtain ⟨entries, path⟩ := entry
    have hrest := ih fun e he => h e (List.mem_cons_of_mem _ he)
    have hentry := h _ List.mem_cons_self
    unfold Node.lastName
    split
    · exact hrest name
    · rename_i raw hraw
      have hname : PointsInto whole (fun _ => True)
          (Node.readName raw (path.key "className")) := by
        unfold Node.readName
        split
        · split
          · exact .of_ok trivial
          · exact .of_malformed _ (hentry.key_near _)
        · exact .of_malformed _ (hentry.key_near _)
      exact hname.bind fun given _ => hrest (some given)

omit hchild hwhole in
theorem readKind_points (h : path.LeadsTo whole raw) (entries : Entries) :
    PointsInto whole (fun _ => True) (Node.readKind entries path) := by
  unfold Node.readKind
  split
  · split
    · exact .of_unsupported _ h.near
    · split
      · exact .of_ok trivial
      · exact .of_malformed _ h.near
  · exact .of_malformed _ h.near

omit hchild hwhole in
theorem checkKeys_points (h : path.LeadsTo whole raw) (entries : Entries) :
    PointsInto whole (fun _ => True) (Node.checkKeys entries path) := by
  unfold Node.checkKeys
  split
  · exact .of_unsupported _ (h.key_near _)
  · exact .of_ok trivial

omit hchild hwhole in
theorem checkContainers_points (h : path.LeadsTo whole raw) (entries : Entries) (kind : Kind) :
    PointsInto whole (fun _ => True) (Node.checkContainers entries kind path) := by
  unfold Node.checkContainers
  split
  · exact .of_malformed _ (h.key_near _)
  · exact .of_ok trivial

omit hchild in
/-- Flags that are not there raise no errors either. -/
theorem flags_points (h : path.Holds whole entries) (kind : Kind) :
    PointsInto whole
      (fun raw => PointsInto whole (fun _ => True) (Node.readFlags raw kind (path.key "flags")))
      ((entries.field "flags").asEntries (path.key "flags")) := by
  by_cases hnull : entries.field "flags" = .null
  · rw [hnull]
    obtain ⟨flags, hflags⟩ := readFlags_nil kind (path.key "flags")
    exact .of_ok (hflags ▸ .of_ok trivial)
  · exact (asEntries_points (h.field hnull)).mono fun raw hraw => readFlags_points hwhole hraw kind

omit hchild hwhole in
theorem readPart_points {α : Type} {reader : Value → Path → Checked α} {absent : α} {key : String}
    {Q : α → Prop} (h : path.Holds whole entries) (habsent : Q absent)
    (hreader : ∀ raw, (path.key key).LeadsTo whole raw →
      PointsInto whole Q (reader raw (path.key key))) :
    PointsInto whole Q (Node.readPart reader absent entries key path) := by
  unfold Node.readPart
  split
  · rename_i hget
    exact hreader _ (h.get hget)
  · exact .of_ok habsent

/-- What is known of the parts of a node: each of them was read or stands for values, and they stand
below the node on ways of their own. -/
structure Node.Sound (whole : Value) (G : Node → Prop) (n : Node) : Prop where
  content : ∀ m ∈ n.content, G m
  branches : ∀ m ∈ n.branches, G m
  conditions : ∀ m ∈ n.conditions, G m ∨ m.StandsForValues whole
  laid : Laid n.path.steps n.parts
  below : ∀ m ∈ n.parts, m.path.steps ≠ n.path.steps

theorem readLevel_points (h : path.LeadsTo whole raw) :
    PointsInto whole (fun n => n.path = path ∧ n.Sound whole G) (Node.readLevel child raw path) := by
  have hdescription : PointsInto whole (fun entries => raw = .map entries)
      (Node.asDescription raw path) := by
    unfold Node.asDescription
    split
    · exact .of_ok rfl
    · exact .of_malformed _ h.near
  rw [Node.readLevel_eq]
  refine hdescription.bind fun entries hentries => ?_
  subst hentries
  have hholds : path.Holds whole entries := .inl h
  refine (readKind_points h entries).bind fun kind _ => ?_
  refine (checkKeys_points h entries).bind fun _ _ => ?_
  refine (checkContainers_points h entries kind).bind fun _ _ => ?_
  refine (flags_points hwhole hholds kind).bind fun rawFlags hflags => hflags.bind fun flags _ => ?_
  refine (readAll_points hholds.field).bind fun rules _ => ?_
  refine (readLiterals_points hwhole hholds.field).bind fun listed _ => ?_
  refine (readLiterals_points hwhole hholds.field).bind fun extra _ => ?_
  refine (readLiterals_points hwhole hholds.field).bind fun invalids _ => ?_
  refine (readLiterals_points hwhole hholds.field).bind fun invalid _ => ?_
  refine (readPart_points hholds ⟨.nil, by simp⟩ fun raw hraw =>
    readKeys_points hwhole hchild hraw).bind fun keys hkeys => ?_
  refine (readPart_points hholds ⟨.nil, by simp⟩ fun raw hraw =>
    readItems_points hchild hraw).bind fun items hitems => ?_
  refine (readMembers_points hwhole hchild h kind).bind fun members hmembers => ?_
  refine (readPart_points hholds ⟨.nil, by simp⟩ fun raw hraw =>
    readWhens_points hwhole hchild hraw).bind fun whens hwhens => ?_
  refine (readMetas_points hholds).bind fun metas hmetas => ?_
  refine (lastName_points hmetas none).bind fun name _ => .of_pure ⟨rfl, ?_⟩
  have hguards : ∀ g ∈ members.2 ++ whens, g.Sound whole G := by
    intro g hg
    rcases List.mem_append.1 hg with hg | hg
    · exact hmembers.2.2 g hg
    · exact hwhens.2 g hg
  have hgroups : ∀ g ∈ [("keys", (keys.getD []).map Prod.snd), ("items", items),
      ("matches", members.1 ++ members.2.flatMap Guard.parts),
      ("whens", whens.flatMap Guard.parts)], Laid (path.steps ++ [.key g.1]) g.2 := by
    simpa using ⟨hkeys.1, hitems.1, hmembers.1, hwhens.1⟩
  constructor
  · intro m hm
    simp only [Node.content, List.mem_append, List.mem_map] at hm
    rcases hm with (⟨key, hkey, rfl⟩ | hm) | hm
    · exact hkeys.2 key hkey
    · exact hitems.2 m hm
    · exact hmembers.2.1 m hm
  · intro m hm
    obtain ⟨g, hg, hm⟩ := List.mem_flatMap.1 hm
    exact (hguards g hg).branches m hm
  · intro m hm
    obtain ⟨g, hg, hm⟩ := List.mem_flatMap.1 hm
    exact (hguards g hg).conditions m hm
  · simpa [Node.parts, Node.content] using Laid.named (by simp) hgroups
  · intro m hm
    exact Laid.named_below hgroups m (by simpa [Node.parts, Node.content] using hm)

end

namespace Node

/-! ## Whole descriptions -/

/-- A node that was read from a map, and stands where the map does. -/
def ReadFrom (limit : Int) (whole : Value) (m : Node) : Prop :=
  ∃ levels entries, m.path.LeadsTo whole (.map entries) ∧
    read limit levels (.map entries) m.path = .ok m

theorem all_sound_of_compares {whole : Value} {G : Node → Prop} {m : Node} (h : Case.Compares m) :
    m.All (Sound whole G) := by
  obtain ⟨hcontent, hbranches, hconditions⟩ := h.parts
  have hparts : m.parts = [] := by
    refine List.eq_nil_iff_forall_not_mem.2 fun x hx => ?_
    simp [mem_parts, hcontent, hbranches, hconditions] at hx
  have hsound : m.Sound whole G := by
    constructor
    · simp [hcontent]
    · simp [hbranches]
    · simp [hconditions]
    · rw [hparts]
      exact .nil
    · simp [hparts]
  exact .intro hsound (by simp [hcontent]) (by simp [hbranches]) (by simp [hconditions])

theorem Sound.mono {whole : Value} {G G' : Node → Prop} {n : Node} (h : n.Sound whole G)
    (hG : ∀ m, G m → G' m) : n.Sound whole G' where
  content := fun m hm => hG m (h.content m hm)
  branches := fun m hm => hG m (h.branches m hm)
  conditions := fun m hm => (h.conditions m hm).imp_left (hG m)
  laid := h.laid
  below := h.below

/-- Reading points into the value, and all nodes it gives stand where they were read from. -/
theorem read_points {whole : Value} (hwhole : whole.hasDistinctNames = true) (limit : Int)
    (levels : Nat) : ChildReader.Points whole
      (fun m => m.ReadFrom limit whole ∧ m.All (Sound whole (ReadFrom limit whole)))
      (read limit levels) := by
  induction levels with
  | zero =>
    intro raw path h
    exact ⟨fun e he => by cases he; exact ⟨h.near, rfl⟩, fun _ hm => by cases hm⟩
  | succ levels ih =>
    intro raw path h
    have hpoints := readLevel_points hwhole ih h
    refine hpoints.self.mono fun n hn => ?_
    obtain ⟨rfl, hsound⟩ := hpoints.ok n hn
    obtain ⟨entries, rfl, -⟩ := readLevel_ok hn
    refine ⟨rfl, ⟨levels + 1, entries, h, hn⟩, .intro (hsound.mono fun m hm => hm.1) ?_ ?_ ?_⟩
    · exact fun m hm => (hsound.content m hm).2
    · exact fun m hm => (hsound.branches m hm).2
    · intro m hm
      rcases hsound.conditions m hm with hm | hm
      · exact hm.2
      · exact all_sound_of_compares hm.compares

theorem All.parts {P : Node → Prop} {n : Node} (h : n.All P) : ∀ m ∈ n.parts, m.All P := by
  intro m hm
  rcases mem_parts.1 hm with hm | hm | hm
  · exact h.content m hm
  · exact h.branches m hm
  · exact h.conditions m hm

theorem All.sub {P : Node → Prop} {n m : Node} {pos : List Nat} (h : n.All P)
    (hm : n.sub? pos = some m) : m.All P := by
  induction pos generalizing n with
  | nil =>
    cases hm
    exact h
  | cons i rest ih =>
    obtain ⟨k, hk, hm⟩ := Option.bind_eq_some_iff.1 hm
    exact ih (h.parts k (List.mem_of_getElem? hk)) hm

section

variable {whole : Value} {G : Node → Prop}

/-- A node further down has a path that goes further. -/
theorem path_prefix_of_sub {n m : Node} {pos : List Nat} (h : n.All (Sound whole G))
    (hm : n.sub? pos = some m) : n.path.steps <+: m.path.steps := by
  induction pos generalizing n with
  | nil =>
    cases hm
    exact List.prefix_refl _
  | cons i rest ih =>
    obtain ⟨k, hk, hm⟩ := Option.bind_eq_some_iff.1 hm
    have hk := List.mem_of_getElem? hk
    exact (h.self.laid.under k hk).2.trans (ih (h.parts k hk) hm)

theorem base_of_sub {n m : Node} {pos : List Nat} (h : n.All (Sound whole G))
    (hbase : n.path.base = "") (hm : n.sub? pos = some m) : m.path.base = "" := by
  induction pos generalizing n with
  | nil =>
    cases hm
    exact hbase
  | cons i rest ih =>
    obtain ⟨k, hk, hm⟩ := Option.bind_eq_some_iff.1 hm
    have hk := List.mem_of_getElem? hk
    exact ih (h.parts k hk) (h.self.laid.under k hk).1 hm

theorem path_ne_of_sub {n m : Node} {i : Nat} {rest : List Nat} (h : n.All (Sound whole G))
    (hm : n.sub? (i :: rest) = some m) : m.path.steps ≠ n.path.steps := by
  obtain ⟨k, hk, hm⟩ := Option.bind_eq_some_iff.1 hm
  have hk := List.mem_of_getElem? hk
  have hunder := (h.self.laid.under k hk).2
  have hdown := path_prefix_of_sub (h.parts k hk) hm
  intro heq
  rw [heq] at hdown
  exact h.self.below k hk (hdown.eq_of_length_le hunder.length_le)

/-- Different positions have different paths. -/
theorem sub_inj {n m m' : Node} {pos pos' : List Nat} (h : n.All (Sound whole G))
    (hm : n.sub? pos = some m) (hm' : n.sub? pos' = some m')
    (hpath : m.path.steps = m'.path.steps) : pos = pos' := by
  induction pos generalizing n pos' with
  | nil =>
    cases pos' with
    | nil => rfl
    | cons j rest' =>
      cases hm
      exact absurd hpath.symm (path_ne_of_sub h hm')
  | cons i rest ih =>
    cases pos' with
    | nil =>
      cases hm'
      exact absurd hpath (path_ne_of_sub h hm)
    | cons j rest' =>
      obtain ⟨k, hk, hm⟩ := Option.bind_eq_some_iff.1 hm
      obtain ⟨k', hk', hm'⟩ := Option.bind_eq_some_iff.1 hm'
      have hall := h.parts k (List.mem_of_getElem? hk)
      have hall' := h.parts k' (List.mem_of_getElem? hk')
      by_cases hij : i = j
      · subst hij
        obtain rfl := Option.some.inj (hk.symm.trans hk')
        rw [ih hall hm hm']
      · -- Two parts of one node: their ways have parted, and do not meet again.
        have hapart := h.self.laid.apart_of_ne hk hk' hij
        exact absurd hpath
          (hapart.extend (path_prefix_of_sub hall hm) (path_prefix_of_sub hall' hm')).ne

end

/-- Every node of a description stands at the map that it was read from, apart from conditions that
stand for values, and no two of them have paths with the same text. -/
structure Located (limit : Int) (whole : Value) (root : Node) : Prop where
  self : root.ReadFrom limit whole
  content : ∀ pos n, root.sub? pos = some n → ∀ m ∈ n.content, m.ReadFrom limit whole
  branches : ∀ pos n, root.sub? pos = some n → ∀ m ∈ n.branches, m.ReadFrom limit whole
  conditions : ∀ pos n, root.sub? pos = some n →
    ∀ m ∈ n.conditions, m.ReadFrom limit whole ∨ m.StandsForValues whole
  distinct : ∀ pos pos' n n', root.sub? pos = some n → root.sub? pos' = some n' →
    n.path.render = n'.path.render → pos = pos'

/-- If a description is read, its nodes stand where they were read from; if it is not, the error
points into it. -/
theorem ofValue_located (limit : Int) {raw : Value} (hraw : raw.hasDistinctNames = true) :
    (∀ root, ofValue limit raw = .ok root → root.Located limit raw) ∧
      ∀ e, ofValue limit raw = .error e → e.path.IsNear raw := by
  have hpoints := read_points hraw limit limit.toNat (Path.leadsTo_root raw)
  refine ⟨fun root hroot => ?_, fun e he => (hpoints.error e he).1⟩
  obtain ⟨hpath, hself, hall⟩ := hpoints.ok root hroot
  have hbase : root.path.base = "" := hpath ▸ rfl
  refine
    { self := hself
      content := fun pos n hn => (hall.sub hn).self.content
      branches := fun pos n hn => (hall.sub hn).self.branches
      conditions := fun pos n hn => (hall.sub hn).self.conditions
      distinct := fun pos pos' n n' hn hn' hrender => sub_inj hall hn hn' ?_ }
  have hrendered : ∀ {pos : List Nat} {n : Node}, root.sub? pos = some n →
      n.path.render = Path.render ⟨"", n.path.steps⟩ := by
    intro pos n hn
    rw [← base_of_sub hall hbase hn]
  rw [hrendered hn, hrendered hn'] at hrender
  exact Path.steps_eq_of_render hrender

/-- A property with a conditional of two cases, once as it should be and once with a branch of an
unknown type. -/
theorem ofValue_located_conditional :
    let description (branch : String) : Value :=
      .map [(.str "type", .str "object"), (.str "keys", .map
        [(.str "a", .map [(.str "type", .str "string"), (.str "whens", .list [.map
          [(.str "ref", .str "b"), (.str "switch", .tuple
            [.map [(.str "is", .map [(.str "type", .str "number")]),
                (.str "then", .map [(.str "type", .str branch)])],
              .map [(.str "is", .list [.int 1, .int 2]), (.str "then", .null),
                (.str "otherwise", .map [(.str "type", .str "any")])]])]])])])]
    (∃ root, ofValue 4 (description "string") = .ok root ∧ root.Located 4 (description "string")) ∧
      ∃ e, ofValue 4 (description "text") = .error e ∧ e.path.IsNear (description "text") := by
  constructor
  · refine ⟨?root, ?hread, (ofValue_located 4 (by decide)).1 ?root ?hread⟩
    case hread => rfl
  · refine ⟨?e, ?herror, (ofValue_located 4 (by decide)).2 ?e ?herror⟩
    case herror => rfl

end Node

end Schemata
