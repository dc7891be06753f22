import Schemata.Proofs.Shown
/-!
Every approximation is reported.

Three things are lost on the way from a description to its code: the rules beside a list of values, the
labels, and the order in which conditionals are evaluated. Each of them leaves a note. `Adds` counts
notes: it says exactly which ones a step makes, and has one lemma per way of putting steps together.
Without conditionals the notes of a description are those of its nodes, children before parents, and
there are no others.

Component: the notes that the writer makes, `Progress.notes`. Main results:
- `write_adds` — without conditionals, writing makes the notes about its nodes and no others;
- `Ran.guardNote` — writing a conditional makes a note about it;
- `compile_reports` — every compilation reports its approximations.
-/

namespace Schemata

/-- The kinds of nodes that stand for a single value and have no children. -/
def Kind.isPrimitive : Kind → Bool
  | string => true
  | number => true
  | boolean => true
  | date => true
  | binary => true
  | any => true
  | object => false
  | array => false
  | alternatives => false
  | forbidden => false

namespace Node

/-! ## The notes about a node -/

/-- What is noted if a list of values takes the place of the rules of a node. -/
def ruleNotes (n : Node) : List Diagnostic :=
  if n.kind.isPrimitive && !n.valids.isEmpty && !n.rules.isEmpty then [⟨.rulesDropped, n.path⟩]
  else []

def labelNotes (n : Node) : List Diagnostic :=
  match n.flags.label with
  | some label => if label = "" then [] else [⟨.labelDropped label, n.path⟩]
  | none => []

def ownNotes (n : Node) : List Diagnostic := n.ruleNotes ++ n.labelNotes

theorem mem_ruleNotes {n : Node} {d : Diagnostic} : d ∈ n.ruleNotes ↔
    (n.kind.isPrimitive = true ∧ n.valids ≠ [] ∧ n.rules ≠ []) ∧ d = ⟨.rulesDropped, n.path⟩ := by
  simp [ruleNotes, and_assoc]

theorem mem_labelNotes {n : Node} {d : Diagnostic} : d ∈ n.labelNotes ↔
    ∃ label, n.flags.label = some label ∧ label ≠ "" ∧ d = ⟨.labelDropped label, n.path⟩ := by
  unfold labelNotes
  cases n.flags.label with
  | none => simp
  | some label => by_cases hempty : label = "" <;> simp [hempty]

theorem ownNotes_of_composite {n : Node} (h : n.kind.isPrimitive = false) :
    n.ownNotes = n.labelNotes := by
  simp [ownNotes, ruleNotes, h]

theorem sizeOf_lt_of_content {n m : Node} (hm : m ∈ n.content) : sizeOf m < sizeOf n := by
  obtain ⟨kind, flags, rules, valids, allow, invalids, keys, items, members, guards, name, path⟩ := n
  simp only [content, List.mem_append, List.mem_map] at hm
  rcases hm with (⟨key, hkey, rfl⟩ | hm) | hm
  · cases keys with
    | none => cases hkey
    | some keys =>
      have hlist : sizeOf key < sizeOf keys := List.sizeOf_lt_of_mem hkey
      have hpair : sizeOf key.2 < sizeOf key := by
        obtain ⟨name, m⟩ := key
        simp only [Prod.mk.sizeOf_spec]
        omega
      simp only [Node.mk.sizeOf_spec, Option.some.sizeOf_spec]
      omega
  · have hlist : sizeOf m < sizeOf items := List.sizeOf_lt_of_mem hm
    simp only [Node.mk.sizeOf_spec]
    omega
  · have hlist : sizeOf m < sizeOf members := List.sizeOf_lt_of_mem hm
    simp only [Node.mk.sizeOf_spec]
    omega

/-- What is noted about a node without conditionals and about everything in it, in order: a node comes
after its content, and there is nothing to note about a forbidden one. -/
def notes (n : Node) : List Diagnostic :=
  if n.isForbidden then []
  else (n.content.attach.flatMap fun m => notes m.1) ++ n.ownNotes
termination_by sizeOf n
decreasing_by exact sizeOf_lt_of_content m.2

theorem notes_of_forbidden {n : Node} (hf : n.isForbidden = true) : n.notes = [] := by
  rw [notes, if_pos hf]

theorem notes_of_open {n : Node} (hf : n.isForbidden = false) :
    n.notes = n.content.flatMap notes ++ n.ownNotes := by
  rw [notes, if_neg (by simp [hf])]
  simp

/-- Every note is about an open node that is shown. -/
theorem shows_of_mem_notes {d : Diagnostic} (n : Node) (hguards : ∀ m, n.Shows m → m.guards = [])
    (hd : d ∈ n.notes) : ∃ m, n.Shows m ∧ m.isOpen = true ∧ d ∈ m.ownNotes := by
  cases hf : n.isForbidden with
  | true =>
    rw [notes_of_forbidden hf] at hd
    cases hd
  | false =>
    have hopen : n.isOpen = true := isOpen_iff.2 ⟨hf, hguards n .root⟩
    rw [notes_of_open hf] at hd
    rcases List.mem_append.1 hd with hd | hd
    · obtain ⟨k, hk, hd⟩ := List.mem_flatMap.1 hd
      have hshows : n.Shows k := .step .root hopen hk
      have hsmaller : sizeOf k < sizeOf n := sizeOf_lt_of_content hk
      obtain ⟨m, hm, hm', hd⟩ :=
        shows_of_mem_notes k (fun m hm => hguards m (hshows.trans hm)) hd
      exact ⟨m, hshows.trans hm, hm', hd⟩
    · exact ⟨n, .root, hopen, hd⟩
termination_by sizeOf n

end Node

namespace Writing

/-! ## Counting notes -/

/-- Every run of a step that succeeds makes exactly the given notes, in order. -/
def Adds {α : Type} (ds : List Diagnostic) (x : Write α) : Prop :=
  ∀ p a q, x p = .ok (a, q) → q.notes = p.notes ++ ds

section Combinators
variable {α β : Type} {ds es : List Diagnostic}

theorem adds_pure (a : α) : Adds [] (pure a : Write α) := by
  intro p b q h
  cases h
  rw [List.append_nil]

theorem adds_lift (w : Written α) : Adds [] (lift w) := by
  intro p a q h
  obtain ⟨-, rfl⟩ := lift_ok.1 h
  rw [List.append_nil]

theorem adds_reject (cause : Cause) (path : Path) : Adds ds (reject cause path : Write α) := by
  intro p a q h
  cases h

theorem adds_note (notice : Notice) (path : Path) : Adds [⟨notice, path⟩] (note notice path) := by
  intro p a q h
  cases h
  rfl

theorem adds_bind {x : Write α} {f : α → Write β} (hx : Adds ds x) (hf : ∀ a, Adds es (f a)) :
    Adds (ds ++ es) (x >>= f) := by
  intro p b r h
  obtain ⟨a, q, hxa, hfa⟩ := bind_ok.1 h
  rw [hf a q b r hfa, hx p a q hxa, List.append_assoc]

/-- A step that makes no notes may come first. -/
theorem adds_after {x : Write α} {f : α → Write β} (hx : Adds [] x) (hf : ∀ a, Adds ds (f a)) :
    Adds ds (x >>= f) := by
  have h := adds_bind hx hf
  rwa [List.nil_append] at h

/-- A step that makes no notes may follow. -/
theorem adds_then {x : Write α} {f : α → Write β} (hx : Adds ds x) (hf : ∀ a, Adds [] (f a)) :
    Adds ds (x >>= f) := by
  have h := adds_bind hx hf
  rwa [List.append_nil] at h

theorem adds_ite {c : Prop} [Decidable c] {x y : Write α} (hx : c → Adds ds x)
    (hy : ¬c → Adds ds y) : Adds ds (if c then x else y) := by
  by_cases h : c
  · rw [if_pos h]; exact hx h
  · rw [if_neg h]; exact hy h

theorem adds_mapM {ds : α → List Diagnostic} {f : α → Write β} {l : List α}
    (h : ∀ a ∈ l, Adds (ds a) (f a)) : Adds (l.flatMap ds) (l.mapM f) := by
  induction l with
  | nil => exact adds_pure []
  | cons a l ih =>
    rw [List.mapM_cons, List.flatMap_cons]
    apply adds_bind (h a (by simp))
    intro b
    apply adds_then (ih fun a' ha' => h a' (by simp [ha']))
    intro bs
    exact adds_pure (b :: bs)

/-- The notes of a step that has run are there at the end. -/
theorem Ran.notes {x : Write α} {p q : Progress} (h : Ran x p q) (hx : Adds ds x) :
    ∀ d ∈ ds, d ∈ q.notes := by
  obtain ⟨p', a, q', -, hrun, hq⟩ := h
  intro d hd
  apply hq.2.subset
  rw [hx p' a q' hrun]
  exact List.mem_append_right _ hd

end Combinators

/-! ## The notes of one node -/

section Steps
variable {setting : Setting} {child : ChildWriter} {n : Node} {target : Code}

theorem noteLabel_adds : Adds n.labelNotes (noteLabel n) := by
  unfold noteLabel Node.labelNotes
  cases n.flags.label with
  | none => exact adds_pure ()
  | some label =>
    by_cases hempty : label = ""
    · simp only [hempty, if_true]
      exact adds_pure ()
    · simp only [hempty, if_false]
      exact adds_note _ _

theorem complete_adds : Adds n.labelNotes (complete n target) := by
  apply adds_after (adds_lift _)
  intro code
  apply adds_then noteLabel_adds
  intro _
  exact adds_pure _

theorem listed_adds (hkind : n.kind.isPrimitive = true) (hvalids : n.valids.isEmpty = false) :
    Adds n.ruleNotes (listed n) := by
  have hmembers : Adds [] (do
      let members ← lift (n.valids.mapM exactly)
      return Code.union members) := adds_then (adds_lift _) fun _ => adds_pure _
  simp only [listed]
  apply adds_ite
  · intro _
    exact adds_reject _ _
  · intro _
    cases hrules : n.rules.isEmpty with
    | true => simpa [Node.ruleNotes, hrules] using hmembers
    | false =>
      simp only [Node.ruleNotes, hkind, hvalids, hrules, Bool.not_false, Bool.and_self, if_true]
      exact adds_then (adds_note _ _) fun _ => hmembers

theorem primitive_adds {base : Code} (hkind : n.kind.isPrimitive = true) :
    Adds n.ownNotes (primitive setting n base) := by
  have hinvalids : ∀ code, Adds n.labelNotes (if n.invalids.isEmpty then
      pure code >>= fun code => complete n code
      else lift (refuseInvalid setting n code) >>= fun code => complete n code) := by
    intro code
    apply adds_ite
    · exact fun _ => adds_after (adds_pure _) fun _ => complete_adds
    · exact fun _ => adds_after (adds_lift _) fun _ => complete_adds
  simp only [primitive]
  apply adds_after (adds_lift _)
  intro ruled
  cases hvalids : n.valids.isEmpty with
  | true =>
    have hown : n.ownNotes = n.labelNotes := by simp [Node.ownNotes, Node.ruleNotes, hvalids]
    rw [hown, if_pos rfl]
    exact adds_after (adds_pure _) hinvalids
  | false =>
    rw [if_neg (by simp)]
    exact adds_bind (listed_adds hkind hvalids) hinvalids

theorem completeComposite_adds : Adds n.labelNotes (completeComposite n target) := by
  simp only [completeComposite]
  apply adds_ite
  · intro _
    exact adds_reject _ _
  · intro _
    exact complete_adds

theorem named_adds : Adds [] (named n target) := by
  unfold named
  split
  · intro p code q h
    obtain ⟨-, ⟨rfl, -⟩ | ⟨-, rfl⟩⟩ := declare_ok h
    · rw [List.append_nil]
    · rw [List.append_nil]
  · exact adds_pure _

theorem field_adds {ds : List Diagnostic} (h : Adds ds (child n)) :
    Adds ds (field setting child n) := by
  simp only [field]
  apply adds_then h
  intro code
  apply adds_ite fun _ => adds_pure _
  intro _
  apply adds_ite fun _ => adds_pure _
  intro _
  exact adds_ite (fun _ => adds_lift _) fun _ => adds_pure _

end Steps

/-! ## The notes of a description without conditionals -/

section Plain
variable {setting : Setting} {child : ChildWriter} {n : Node} {p q : Progress} {code : Code}

theorem property_adds {name : String} {ds : List Diagnostic} (hguards : n.guards = [])
    (h : Adds ds (child n)) : Adds ds (property setting child name n) := by
  simp only [property, hguards]
  exact adds_then (field_adds h) fun _ => adds_pure _

theorem object_adds (hc : ∀ m ∈ (n.keys.getD []).map Prod.snd, m.guards = [] ∧
      Adds m.notes (child m)) :
    Adds (((n.keys.getD []).map Prod.snd).flatMap Node.notes) (object setting child n) := by
  rw [List.flatMap_map]
  have hproperties : Adds ((n.keys.getD []).flatMap fun key => key.2.notes)
      ((n.keys.getD []).mapM fun key => property setting child key.1 key.2) := by
    apply adds_mapM
    intro key hkey
    obtain ⟨hguards, hadds⟩ := hc key.2 (List.mem_map_of_mem hkey)
    exact property_adds hguards hadds
  apply adds_then hproperties
  intro properties
  exact adds_then (adds_lift _) fun _ => adds_pure _

theorem array_adds (hc : ∀ m ∈ n.items, Adds m.notes (child m)) :
    Adds (n.items.flatMap Node.notes) (array setting child n) :=
  adds_then (adds_mapM hc) fun _ => adds_lift _

theorem alternatives_adds (hc : ∀ m ∈ n.members, Adds m.notes (child m)) :
    Adds (n.members.flatMap Node.notes) (alternatives setting child n) :=
  adds_then (adds_mapM hc) fun _ => adds_lift _

/-- Children of one sort are the whole content of a node. -/
theorem content_of_kind (hn : n.Housed) : n.content =
    match n.kind with
    | .object => (n.keys.getD []).map Prod.snd
    | .array => n.items
    | .alternatives => n.members
    | _ => [] := by
  have hkeys : n.kind ≠ .object → n.keys.getD [] = [] := by
    intro hkind
    cases hkeys : n.keys with
    | none => rfl
    | some keys => exact absurd (hn.keys (by rw [hkeys]; rfl)) hkind
  have hitems : n.kind ≠ .array → n.items = [] := by
    intro hkind
    by_contra hitems
    exact hkind (hn.items hitems)
  have hmembers : n.kind ≠ .alternatives → n.members = [] := by
    intro hkind
    by_contra hmembers
    exact hkind (hn.members hmembers)
  unfold Node.content
  cases hkind : n.kind <;> simp [hkind] at hkeys hitems hmembers ⊢ <;> simp [*]

/-- Writing the body of an open node makes the notes of its content, and then its own. -/
theorem body_adds (hn : n.Housed) (hopen : n.isOpen = true)
    (hc : ∀ m ∈ n.content, m.guards = [] ∧ Adds m.notes (child m)) :
    Adds (n.content.flatMap Node.notes ++ n.ownNotes) (body setting child n) := by
  obtain ⟨hf, hguards⟩ := Node.isOpen_iff.1 hopen
  have hcontent := content_of_kind hn
  unfold body
  rw [hguards]
  cases hkind : n.kind
  case forbidden => simp [Node.isForbidden, hkind] at hf
  case object =>
    simp only [hkind] at hcontent
    rw [Node.ownNotes_of_composite (by rw [hkind]; rfl), hcontent]
    rw [hcontent] at hc
    exact adds_bind (object_adds hc) fun _ => completeComposite_adds
  case array =>
    simp only [hkind] at hcontent
    rw [Node.ownNotes_of_composite (by rw [hkind]; rfl), hcontent]
    rw [hcontent] at hc
    exact adds_bind (array_adds fun m hm => (hc m hm).2) fun _ => completeComposite_adds
  case alternatives =>
    simp only [hkind] at hcontent
    rw [Node.ownNotes_of_composite (by rw [hkind]; rfl), hcontent]
    rw [hcontent] at hc
    exact adds_bind (alternatives_adds fun m hm => (hc m hm).2) fun _ => completeComposite_adds
  -- The kinds that are left have no content.
  all_goals
    simp only [hkind] at hcontent
    rw [hcontent]
    exact primitive_adds (by rw [hkind]; rfl)

/-- Writing a description without conditionals makes the notes about its nodes and no others. -/
theorem write_adds {levels : Nat} (hn : n.All Node.Housed)
    (hguards : ∀ m, n.Shows m → m.guards = []) : Adds n.notes (write setting levels n) := by
  induction levels generalizing n with
  | zero => exact adds_reject _ _
  | succ levels ih =>
    simp only [write, level]
    cases hf : n.isForbidden with
    | true =>
      rw [Node.notes_of_forbidden hf]
      exact adds_pure _
    | false =>
      have hopen : n.isOpen = true := Node.isOpen_iff.2 ⟨hf, hguards n .root⟩
      have hc : ∀ m ∈ n.content, m.guards = [] ∧ Adds m.notes (write setting levels m) := by
        intro m hm
        have hshows : n.Shows m := .step .root hopen hm
        refine ⟨hguards m hshows, ih (hn.content m hm) fun k hk => ?_⟩
        exact hguards k (hshows.trans hk)
      rw [Node.notes_of_open hf]
      apply adds_then (body_adds hn.self hopen hc)
      intro code
      exact adds_then named_adds fun _ => adds_lift _

end Plain

/-! ## The notes that any description leaves -/

section Run
variable {setting : Setting} {levels : Nat} {root n k : Node} {name : String} {guard : Guard Node}
  {child : ChildWriter} {p q : Progress} {top : Code}

/-- Writing the body of an open node makes the notes about the node itself, whatever it contains. -/
theorem Ran.ownNotes (h : Ran (body setting child n) p q)
    (hc : ∀ m, growth.Holds (fun _ => True) (child m)) (hopen : n.isOpen = true) :
    ∀ d ∈ n.ownNotes, d ∈ q.notes := by
  obtain ⟨hf, hguards⟩ := Node.isOpen_iff.1 hopen
  have hgood := Code.Closed.trivial.composed
  have hbrings := brings_of_closed Code.Closed.trivial setting n
  have hallows := growth_allows setting n
  unfold body at h
  rw [hguards] at h
  cases hkind : n.kind
  case forbidden => simp [Node.isForbidden, hkind] at hf
  case object =>
    simp only [hkind] at h
    obtain ⟨code, hlast⟩ := h.second (object_holds hgood hkind hbrings hallows fun m _ => hc m)
    rw [Node.ownNotes_of_composite (by rw [hkind]; rfl)]
    exact hlast.notes completeComposite_adds
  case array =>
    simp only [hkind] at h
    obtain ⟨code, hlast⟩ := h.second (array_holds hgood hbrings hallows fun m _ => hc m)
    rw [Node.ownNotes_of_composite (by rw [hkind]; rfl)]
    exact hlast.notes completeComposite_adds
  case alternatives =>
    simp only [hkind] at h
    obtain ⟨code, hlast⟩ := h.second (alternatives_holds hgood hkind hbrings hallows fun m _ => hc m)
    rw [Node.ownNotes_of_composite (by rw [hkind]; rfl)]
    exact hlast.notes completeComposite_adds
  -- The kinds that are left have no children, so that there are no notes but their own.
  all_goals
    simp only [hkind, Code.base?] at h
    exact h.notes (primitive_adds (by rw [hkind]; rfl))

/-- Writing a conditional makes a note about it. -/
theorem Ran.guardNote {base : Option Node}
    (h : Ran (Writing.selection setting child base name guard) p q) :
    ⟨.conditionalApproximated guard.reference.display name, guard.path⟩ ∈ q.notes := by
  obtain ⟨p', s, q', -, hrun, hq⟩ := h
  obtain ⟨access, p₁, -, hrun⟩ := bind_ok.1 hrun
  obtain ⟨tests, p₂, -, hrun⟩ := bind_ok.1 hrun
  obtain ⟨branches, p₃, -, hrun⟩ := bind_ok.1 hrun
  obtain ⟨otherwise, p₄, -, hrun⟩ := bind_ok.1 hrun
  obtain ⟨u, p₅, hnote, hrun⟩ := bind_ok.1 hrun
  cases hnote
  cases hrun
  apply hq.2.subset
  exact List.mem_append_right _ (List.mem_singleton.2 rfl)

end Run

end Writing

namespace Compiler

/-- Every approximation is reported. Conditionals and rules that a list of values replaces leave a
warning, labels leave a remark, each at the place it is about. If nothing that is shown has
conditionals, then there is one note for each of the others, in order, and nothing else. -/
structure Reports (root : Node) (diagnostics : List Diagnostic) : Prop where
  guards : ∀ name k, root.ShowsProperty name k → ∀ guard ∈ k.guards,
    ∃ d ∈ diagnostics, d.level = .warning ∧ d.path = guard.path ∧
      d.notice = .conditionalApproximated guard.reference.display name
  rules : ∀ n, root.Shows n → n.isOpen = true → n.kind.isPrimitive = true → n.valids ≠ [] →
    n.rules ≠ [] → ∃ d ∈ diagnostics, d.level = .warning ∧ d.path = n.path ∧
      d.notice = .rulesDropped
  labels : ∀ n label, root.Shows n → n.isOpen = true → n.flags.label = some label → label ≠ "" →
    ∃ d ∈ diagnostics, d.level = .info ∧ d.path = n.path ∧ d.notice = .labelDropped label
  plain : (∀ n, root.Shows n → n.guards = []) → diagnostics = root.notes ∧
    ∀ d ∈ diagnostics, ∃ n, root.Shows n ∧ n.isOpen = true ∧ d.path = n.path ∧
      (d.level = .warning ∧ n.kind.isPrimitive = true ∧ n.valids ≠ [] ∧ n.rules ≠ [] ∧
          d.notice = .rulesDropped ∨
        ∃ label, d.level = .info ∧ n.flags.label = some label ∧ label ≠ "" ∧
          d.notice = .labelDropped label)

theorem write_reports {setting : Setting} {levels : Nat} {root : Node} {top : Code}
    {progress : Progress} (hroot : root.All Node.Housed)
    (hrun : Writing.write setting levels root {} = .ok (top, progress)) :
    Reports root progress.notes where
  guards name k hk guard hguard := by
    obtain ⟨n, hn, hopen, hk⟩ := hk
    obtain ⟨below, -, hbody⟩ := Writing.ran_body_of_shows hrun hroot hn hopen
    have hran := hbody.property_selection (Writing.write_growth setting below) (hn.all hroot).self
      hopen hk hguard
    exact ⟨_, hran.guardNote, rfl, rfl, rfl⟩
  rules n hn hopen hkind hvalids hrules := by
    obtain ⟨below, -, hbody⟩ := Writing.ran_body_of_shows hrun hroot hn hopen
    have hown := hbody.ownNotes (Writing.write_growth setting below) hopen
    have hmem := Node.mem_ruleNotes.2 ⟨⟨hkind, hvalids, hrules⟩, rfl⟩
    exact ⟨_, hown _ (List.mem_append_left _ hmem), rfl, rfl, rfl⟩
  labels n label hn hopen hlabel hne := by
    obtain ⟨below, -, hbody⟩ := Writing.ran_body_of_shows hrun hroot hn hopen
    have hown := hbody.ownNotes (Writing.write_growth setting below) hopen
    have hmem := Node.mem_labelNotes.2 ⟨label, hlabel, hne, rfl⟩
    exact ⟨_, hown _ (List.mem_append_right _ hmem), rfl, rfl, rfl⟩
  plain hguards := by
    have hnotes : progress.notes = root.notes := Writing.write_adds hroot hguards {} top progress hrun
    refine ⟨hnotes, fun d hd => ?_⟩
    rw [hnotes] at hd
    obtain ⟨n, hn, hopen, hd⟩ := Node.shows_of_mem_notes root hguards hd
    refine ⟨n, hn, hopen, ?_⟩
    rcases List.mem_append.1 hd with hd | hd
    · obtain ⟨⟨hkind, hvalids, hrules⟩, rfl⟩ := Node.mem_ruleNotes.1 hd
      exact ⟨rfl, .inl ⟨rfl, hkind, hvalids, hrules, rfl⟩⟩
    · obtain ⟨label, hlabel, hne, rfl⟩ := Node.mem_labelNotes.1 hd
      exact ⟨rfl, .inr ⟨label, rfl, hlabel, hne, rfl⟩⟩

/-- Every compilation that succeeds reports its approximations. -/
theorem compile_reports {c : Compiler} {raw : Value} {result : Result}
    (h : c.compile (.tree raw) = .ok result) :
    ∃ root, Node.ofValue c.options.maxDepth raw = .ok root ∧ Reports root result.diagnostics := by
  obtain ⟨root, hroot, h⟩ := Outcome.bind_ok.1 h
  have hread : Node.ofValue c.options.maxDepth raw = .ok root := Outcome.toWritten_ok.1 hroot
  obtain ⟨top, progress, hrun, rfl⟩ := compileNode_ok.1 h
  exact ⟨root, hread, write_reports (Node.read_housed hread) hrun⟩

/-- A labelled number with a list of values, which takes the place of its rule, and a string with a
conditional. -/
theorem compile_reports_conditional :
    let description : Value := .map [(.str "type", .str "object"), (.str "keys", .map
      [(.str "size", .map [(.str "type", .str "number"), (.str "valids", .list [.int 1, .int 2]),
          (.str "flags", .map [(.str "label", .str "Size")]),
          (.str "rules", .list [.map [(.str "name", .str "min"), (.str "args", .list [.int 1])]])]),
        (.str "unit", .map [(.str "type", .str "string"),
          (.str "whens", .list [.map [(.str "ref", .str "size"), (.str "is", .int 1),
            (.str "then", .map [(.str "type", .str "any")])]])])])]
    let size := Path.root.key "keys" |>.key "size"
    let when := (Path.root.key "keys" |>.key "unit" |>.key "whens").index 0
    ∃ result, Compiler.compile {} (.tree description) = .ok result ∧
      (∃ d ∈ result.diagnostics, d.level = .warning ∧ d.path = when) ∧
      (∃ d ∈ result.diagnostics, d.level = .warning ∧ d.path = size) ∧
      ∃ d ∈ result.diagnostics, d.level = .info ∧ d.path = size := by
  intro description size when
  let number : Node :=
    { kind := .number, flags := { label := some "Size" }, rules := [⟨"min", [.int 1]⟩]
      valids := [.int 1, .int 2], path := size }
  let guard : Guard Node :=
    { reference := { segments := ["size"] }
      cases := [{ condition := Case.listedCondition [.int 1] (when.key "is")
                  branch := some { kind := .any, path := when.key "then" } }]
      path := when }
  let text : Node :=
    { kind := .string, guards := [guard], path := Path.root.key "keys" |>.key "unit" }
  let root : Node := { kind := .object, keys := some [("size", number), ("unit", text)] }
  have hnumber : root.Shows number := .step .root rfl List.mem_cons_self
  have htext : root.ShowsProperty "unit" text := ⟨root, .root, rfl, by simp [root]⟩
  obtain ⟨result, hrun⟩ : ∃ result, Compiler.compile {} (.tree description) = .ok result := ⟨_, rfl⟩
  obtain ⟨read, hread, hreports⟩ := compile_reports hrun
  obtain rfl : root = read := Except.ok.inj hread
  obtain ⟨d, hd, hlevel, hpath, -⟩ := hreports.guards "unit" text htext guard List.mem_cons_self
  obtain ⟨e, he, helevel, hepath, -⟩ :=
    hreports.rules number hnumber rfl rfl (List.cons_ne_nil _ _) (List.cons_ne_nil _ _)
  obtain ⟨f, hf, hflevel, hfpath, -⟩ := hreports.labels number "Size" hnumber rfl rfl (by decide)
  exact ⟨result, hrun, ⟨d, hd, hlevel, hpath⟩, ⟨e, he, helevel, hepath⟩, f, hf, hflevel, hfpath⟩

end Compiler

end Schemata
