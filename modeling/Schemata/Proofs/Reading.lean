import Schemata.Proofs.Descriptions
/-!
What reading a description guarantees.

Reading one level succeeds only if every check of that level does: `Reads` lists what each part of the
node was read from. All parts of the node come from the reader of the level below, apart from
conditions that stand for a missing test or for values to compare with. The values a node lists and
its default have passed a check, and what passes it can be written as a literal.

Component: one level of the reader of nodes, `Node.readLevel`, and the check of literals. Main
results:
- `checkLiteral_expressible` — the check of a literal lets nothing through but what can be
  expressed;
- `readLevel_eq` — a level is read one part after the other;
- `read_all` — what holds of everything a reader builds or supplies holds on all levels.
-/

namespace Schemata

/-! ## Checked values can be expressed -/

namespace Value

mutual
/-- Whether a value is null, a boolean, a finite number or a string, or a sequence or a map with
strings for keys that is made of such values. -/
def isExpressible : Value → Bool
  | null => true
  | bool _ => true
  | int _ => true
  | float x => x.isFinite
  | decimal d => d.isFinite
  | str _ => true
  | bytes _ => false
  | list items => areExpressible items
  | tuple items => areExpressible items
  | map entries => haveExpressible entries
def areExpressible : List Value → Bool
  | [] => true
  | item :: rest => item.isExpressible && areExpressible rest
/-- Whether all keys of a map are strings and all its values can be expressed. -/
def haveExpressible : List (Value × Value) → Bool
  | [] => true
  | (key, value) :: rest => key.text?.isSome && value.isExpressible && haveExpressible rest
end

mutual
/-- What can be expressed is written, unless an integer in it has too many digits. -/
theorem unwritable_of_isExpressible : ∀ {v : Value}, v.isExpressible = true →
    v.unwritable? = if v.hasLongInteger then some .longInteger else none
  | null, _ => rfl
  | bool _, _ => rfl
  | int _, _ => rfl
  | float _, _ => rfl
  | decimal _, _ => rfl
  | str _, _ => rfl
  | bytes _, h => by cases h
  | list items, h => by
    rw [isExpressible] at h
    exact unwritable_of_areExpressible h
  | tuple items, h => by
    rw [isExpressible] at h
    exact unwritable_of_areExpressible h
  | map entries, h => by
    rw [isExpressible] at h
    exact unwritable_of_haveExpressible h
theorem unwritable_of_areExpressible : ∀ {items : List Value}, areExpressible items = true →
    unwritableItem? items = if haveLongInteger items then some .longInteger else none
  | [], _ => rfl
  | item :: rest, h => by
    simp only [areExpressible, Bool.and_eq_true] at h
    unfold unwritableItem? haveLongInteger
    rw [unwritable_of_isExpressible h.1]
    cases item.hasLongInteger with
    | true => rfl
    | false => exact unwritable_of_areExpressible h.2
theorem unwritable_of_haveExpressible : ∀ {entries : List (Value × Value)},
    haveExpressible entries = true →
      unwritableEntry? entries = if holdLongInteger entries then some .longInteger else none
  | [], _ => rfl
  | (key, value) :: rest, h => by
    simp only [haveExpressible, Bool.and_eq_true] at h
    obtain ⟨⟨hkey, hvalue⟩, hrest⟩ := h
    -- Keys are texts, which have no digits to count.
    have htext : ¬key.text?.isNone = true := by simpa [Option.isSome_iff_ne_none] using hkey
    have hshort : key.hasLongInteger = false := by
      cases key with
      | str s => rfl
      | _ => cases hkey
    unfold unwritableEntry? holdLongInteger
    rw [if_neg htext, unwritable_of_isExpressible hvalue, hshort]
    cases value.hasLongInteger with
    | true => rfl
    | false => exact unwritable_of_haveExpressible hrest
end

end Value

open Value (areExpressible haveExpressible)

mutual
/-- The check of a literal lets nothing else through, on any level. -/
theorem checkLiteral_expressible {nested : Bool} : ∀ {v : Value} {path : Path},
    checkLiteral nested v path = .ok () → v.isExpressible = true
  | .null, _, _ => rfl
  | .bool _, _, _ => rfl
  | .int _, _, _ => rfl
  | .str _, _, _ => rfl
  | .float x, path, h => by
    simp only [checkLiteral] at h
    split at h
    · assumption
    · cases h
  | .decimal d, path, h => by
    simp only [checkLiteral] at h
    split at h
    · assumption
    · cases h
  | .bytes _, _, h => by cases h
  | .list items, path, h => by
    simp only [checkLiteral] at h
    split at h
    · exact checkLiterals_expressible h
    · cases h
  | .tuple items, path, h => by
    simp only [checkLiteral] at h
    split at h
    · exact checkLiterals_expressible h
    · cases h
  | .map entries, path, h => by
    simp only [checkLiteral] at h
    split at h
    · cases h
    · split at h
      · exact checkLiteralEntries_expressible h
      · cases h
theorem checkLiterals_expressible {nested : Bool} : ∀ {items : List Value} {path : Path} {i : Nat},
    checkLiterals nested items path i = .ok () → areExpressible items = true
  | [], _, _, _ => rfl
  | item :: rest, path, i, h => by
    simp only [checkLiterals] at h
    obtain ⟨_, hitem, hrest⟩ := Outcome.bind_ok.1 h
    simp only [areExpressible, checkLiteral_expressible hitem, checkLiterals_expressible hrest,
      Bool.and_self]
theorem checkLiteralEntries_expressible {nested : Bool} :
    ∀ {entries : List (Value × Value)} {path : Path},
    checkLiteralEntries nested entries path = .ok () → haveExpressible entries = true
  | [], _, _ => rfl
  | (key, value) :: rest, path, h => by
    simp only [checkLiteralEntries] at h
    split at h
    · obtain ⟨_, hvalue, hrest⟩ := Outcome.bind_ok.1 h
      simp only [haveExpressible, Value.text?, Option.isSome_some, checkLiteral_expressible hvalue,
        checkLiteralEntries_expressible hrest, Bool.and_self]
    · cases h
end

/-! ## Conditionals -/

/-- A node comes from a reader. -/
def ReadBy (child : ChildReader) (m : Node) : Prop := ∃ raw path, child raw path = .ok m

theorem Case.Compares.parts {n : Node} (h : Case.Compares n) :
    n.content = [] ∧ n.branches = [] ∧ n.conditions = [] := by
  cases h <;> exact ⟨rfl, rfl, rfl⟩

variable {child : ChildReader}

theorem mem_of_lastBranch {branches : List (Option Node)} {m : Node}
    (h : Guard.lastBranch branches = some m) : some m ∈ branches := by
  -- For the induction the branch kept so far has to be any branch.
  have hfold : ∀ last, branches.foldl (fun last branch => branch <|> last) last = some m →
      some m ∈ branches ∨ last = some m := by
    clear h
    induction branches with
    | nil => exact fun last h => .inr h
    | cons branch rest ih =>
      intro last h
      rcases ih _ h with h | h
      · exact .inl (List.mem_cons_of_mem _ h)
      · cases branch with
        | none => exact .inr h
        | some b => exact .inl (List.mem_cons.2 (.inl h.symm))
  rcases hfold none h with h | h
  · exact h
  · cases h

namespace Node

/-! ## Nodes -/

/-- Reads an entry if it is there. -/
def readPart {α : Type} (reader : Value → Path → Checked α) (absent : α) (entries : Entries)
    (key : String) (path : Path) : Checked α :=
  match entries.get? key with
  | some raw => reader raw (path.key key)
  | none => .ok absent

theorem readPart_ok {α : Type} {reader : Value → Path → Checked α} {absent : α} {entries : Entries}
    {key : String} {path : Path} {a : α} (h : readPart reader absent entries key path = .ok a) :
    (∃ raw, entries.get? key = some raw ∧ reader raw (path.key key) = .ok a) ∨
      entries.get? key = none ∧ a = absent := by
  unfold readPart at h
  split at h
  · rename_i raw hget
    exact .inl ⟨raw, hget, h⟩
  · rename_i hget
    exact .inr ⟨hget, (Except.ok.inj h).symm⟩

/-- The rules of a node, given its flags and the rules that it lists. -/
def rulesWith (rawFlags : Entries) (listed : List Rule) : List Rule :=
  match rawFlags.field "integer" with
  | .bool true => Rule.withInteger listed
  | _ => listed

/-- The entries listed under `metas`, each with its path. -/
def readListed (raw : Value) (path : Path) : Checked (List (Entries × Path)) :=
  match raw with
  | .null => .ok []
  | metas => do
    let items ← metas.asItems path
    readEach (fun item p => do return (← item.asEntries p, p)) items path

/-- Adds the entries under `metadata` to those listed. -/
def addMetadata (raw : Value) (path : Path) (listed : List (Entries × Path)) :
    Checked (List (Entries × Path)) :=
  match raw with
  | .null => .ok listed
  | metadata => do
    let entries ← metadata.asEntries path
    return listed ++ [(entries, path)]

theorem readMetas_eq (entries : Entries) (path : Path) :
    readMetas entries path = (do
      let listed ← readListed (entries.field "metas") (path.key "metas")
      addMetadata (entries.field "metadata") (path.key "metadata") listed) := by
  unfold readMetas readListed addMetadata
  generalize entries.field "metas" = metas
  generalize entries.field "metadata" = metadata
  cases metas <;> cases metadata <;> simp only [bind_assoc] <;> rfl

/-- A level is read one part after the other, and some parts only if they are there. -/
theorem readLevel_eq (child : ChildReader) (raw : Value) (path : Path) :
    readLevel child raw path = (do
      let entries ← asDescription raw path
      let kind ← readKind entries path
      checkKeys entries path
      checkContainers entries kind path
      let rawFlags ← (entries.field "flags").asEntries (path.key "flags")
      let flags ← readFlags rawFlags kind (path.key "flags")
      let rules ← Rule.readAll (entries.field "rules") (path.key "rules")
      let listed ← readLiterals (entries.field "valids") (path.key "valids")
      let extra ← readLiterals (entries.field "allow") (path.key "allow")
      let invalids ← readLiterals (entries.field "invalids") (path.key "invalids")
      let invalid ← readLiterals (entries.field "invalid") (path.key "invalid")
      let keys ← readPart (readKeys child) none entries "keys" path
      let items ← readPart (readItems child) [] entries "items" path
      let members ← readMembers child entries kind path
      let whens ← readPart (readWhens child) [] entries "whens" path
      let metas ← readMetas entries path
      let name ← lastName metas none
      return {
        kind, flags
        rules := rulesWith rawFlags rules
        valids := if (rawFlags.field "only").truthy then listed ++ extra else listed
        allow := if (rawFlags.field "only").truthy then [] else extra
        invalids := invalids ++ invalid
        keys, items
        members := members.1
        guards := members.2 ++ whens
        name, path }) := by
  unfold readLevel
  refine bind_congr fun entries => ?_
  -- The parts that may be missing are the only ones that are read by cases.
  cases hk : entries.get? "keys" <;> cases hi : entries.get? "items" <;>
    cases hw : entries.get? "whens" <;> simp only [readPart, hk, hi, hw] <;> rfl

def readRules (rawFlags entries : Entries) (path : Path) : Checked (List Rule) := do
  let rules ← Rule.readAll (entries.field "rules") (path.key "rules")
  return rulesWith rawFlags rules

/-- The values a node lists, and those it allows beside its type. -/
def readLists (rawFlags entries : Entries) (path : Path) : Checked (List Value × List Value) := do
  let listed ← readLiterals (entries.field "valids") (path.key "valids")
  let extra ← readLiterals (entries.field "allow") (path.key "allow")
  return (if (rawFlags.field "only").truthy then listed ++ extra else listed,
    if (rawFlags.field "only").truthy then [] else extra)

/-- What a node says about its value, given its flags. -/
def readSaid (rawFlags entries : Entries) (kind : Kind) (path : Path) :
    Checked (Flags × List Rule × List Value × List Value) := do
  let flags ← readFlags rawFlags kind (path.key "flags")
  let rules ← readRules rawFlags entries path
  let lists ← readLists rawFlags entries path
  return (flags, rules, lists)

/-- What a node says about its value: its flags, its rules and two lists of values. -/
def readOwn (entries : Entries) (kind : Kind) (path : Path) :
    Checked (Flags × List Rule × List Value × List Value) := do
  let rawFlags ← (entries.field "flags").asEntries (path.key "flags")
  readSaid rawFlags entries kind path

def readInvalids (entries : Entries) (path : Path) : Checked (List Value) := do
  let invalids ← readLiterals (entries.field "invalids") (path.key "invalids")
  let invalid ← readLiterals (entries.field "invalid") (path.key "invalid")
  return invalids ++ invalid

def readNaming (entries : Entries) (path : Path) : Checked (Option String) := do
  let metas ← readMetas entries path
  lastName metas none

theorem readLevel_parts (child : ChildReader) (raw : Value) (path : Path) :
    readLevel child raw path = (do
      let entries ← asDescription raw path
      let kind ← readKind entries path
      checkKeys entries path
      checkContainers entries kind path
      let own ← readOwn entries kind path
      let invalids ← readInvalids entries path
      let keys ← readPart (readKeys child) none entries "keys" path
      let items ← readPart (readItems child) [] entries "items" path
      let members ← readMembers child entries kind path
      let whens ← readPart (readWhens child) [] entries "whens" path
      let name ← readNaming entries path
      return {
        kind
        flags := own.1
        rules := own.2.1
        valids := own.2.2.1
        allow := own.2.2.2
        invalids, keys, items
        members := members.1
        guards := members.2 ++ whens
        name, path }) := by
  simp only [readLevel_eq, readOwn, readSaid, readRules, readLists, readInvalids, readNaming,
    bind_assoc, pure_bind]

/-- What a level reads before the descriptions inside it: its kind, what it says about its value, and
the values it does not accept. -/
def readHead (entries : Entries) (path : Path) :
    Checked (Kind × (Flags × List Rule × List Value × List Value) × List Value) := do
  let kind ← readKind entries path
  checkKeys entries path
  checkContainers entries kind path
  let own ← readOwn entries kind path
  let invalids ← readInvalids entries path
  return (kind, own, invalids)

/-- Only the four parts after the head depend on the reader of the level below. -/
theorem readLevel_head (child : ChildReader) (raw : Value) (path : Path) :
    readLevel child raw path = (do
      let entries ← asDescription raw path
      let head ← readHead entries path
      let keys ← readPart (readKeys child) none entries "keys" path
      let items ← readPart (readItems child) [] entries "items" path
      let members ← readMembers child entries head.1 path
      let whens ← readPart (readWhens child) [] entries "whens" path
      let name ← readNaming entries path
      return {
        kind := head.1
        flags := head.2.1.1
        rules := head.2.1.2.1
        valids := head.2.1.2.2.1
        allow := head.2.1.2.2.2
        invalids := head.2.2
        keys, items
        members := members.1
        guards := members.2 ++ whens
        name, path }) := by
  simp only [readLevel_parts, readHead, bind_assoc, pure_bind]

/-- What the parts of a node were read from, given the entries of the description. -/
structure Reads (child : ChildReader) (entries : Entries) (path : Path) (n : Node) : Prop where
  kind : readKind entries path = .ok n.kind
  containers : checkContainers entries n.kind path = .ok ()
  flags : ∃ raw, (entries.field "flags").asEntries (path.key "flags") = .ok raw ∧
    readFlags raw n.kind (path.key "flags") = .ok n.flags
  rules : ∃ raw listed, (entries.field "flags").asEntries (path.key "flags") = .ok raw ∧
    Rule.readAll (entries.field "rules") (path.key "rules") = .ok listed ∧
    n.rules = rulesWith raw listed
  literals : ∃ valids allow invalids invalid,
    readLiterals (entries.field "valids") (path.key "valids") = .ok valids ∧
    readLiterals (entries.field "allow") (path.key "allow") = .ok allow ∧
    readLiterals (entries.field "invalids") (path.key "invalids") = .ok invalids ∧
    readLiterals (entries.field "invalid") (path.key "invalid") = .ok invalid ∧
    ((n.valids = valids ++ allow ∧ n.allow = []) ∨ (n.valids = valids ∧ n.allow = allow)) ∧
    n.invalids = invalids ++ invalid
  keys : readPart (readKeys child) none entries "keys" path = .ok n.keys
  items : readPart (readItems child) [] entries "items" path = .ok n.items
  guards : ∃ members whens, readMembers child entries n.kind path = .ok (n.members, members) ∧
    readPart (readWhens child) [] entries "whens" path = .ok whens ∧ n.guards = members ++ whens
  name : ∃ metas, readMetas entries path = .ok metas ∧ lastName metas none = .ok n.name
  path : n.path = path

theorem readLevel_ok {raw : Value} {path : Path} {n : Node} (h : readLevel child raw path = .ok n) :
    ∃ entries, raw = .map entries ∧ n.Reads child entries path := by
  simp only [readLevel_eq, Outcome.bind_ok, Outcome.pure_ok] at h
  obtain ⟨entries, hentries, kind, hkind, _, -, _, hcontainers, rawFlags, hraw, flags, hflags, rules,
    hrules, valids, hvalids, allow, hallow, invalids, hinvalids, invalid, hinvalid, keys, hkeys, items,
    hitems, members, hmembers, whens, hwhens, metas, hmetas, name, hname, rfl⟩ := h
  have hmap : raw = .map entries := by
    unfold asDescription at hentries
    split at hentries <;> cases hentries
    rfl
  have hlists : ∀ only : Bool,
      ((if only = true then valids ++ allow else valids) = valids ++ allow ∧
        (if only = true then [] else allow) = []) ∨
      ((if only = true then valids ++ allow else valids) = valids ∧
        (if only = true then [] else allow) = allow) := by
    intro only
    cases only <;> simp
  exact ⟨entries, hmap,
    { kind := hkind
      containers := hcontainers
      flags := ⟨rawFlags, hraw, hflags⟩
      rules := ⟨rawFlags, rules, hraw, hrules, rfl⟩
      literals := ⟨valids, allow, invalids, invalid, hvalids, hallow, hinvalids, hinvalid,
        hlists _, rfl⟩
      keys := hkeys
      items := hitems
      guards := ⟨members.2, whens, hmembers, hwhens, rfl⟩
      name := ⟨metas, hmetas, hname⟩
      path := rfl }⟩

theorem readFlags_default {raw : Entries} {kind : Kind} {path : Path} {flags : Flags}
    (h : readFlags raw kind path = .ok flags) : ∀ v, flags.default = some v →
      ∃ path, checkLiteral true v path = .ok () := by
  simp only [readFlags, Flags.read, Outcome.bind_ok, Outcome.pure_ok] at h
  obtain ⟨-, ⟨presence, -, default, hdefault, strip, -, unknown, -, _, -, label, -, description, -,
    rfl⟩, rfl⟩ := h
  intro v hv
  split at hv
  · cases hv
  · cases hv
    unfold Flags.readDefault at hdefault
    split at hdefault
    · cases hdefault
    · obtain ⟨_, hcheck, hvalue⟩ := Outcome.bind_ok.1 hdefault
      cases hvalue
      exact ⟨_, hcheck⟩

/-- What the parts of a node were read from, in order. -/
structure Origin (child : ChildReader) (entries : Entries) (n : Node) : Prop where
  keys : List.Forall₂ (fun entry key => entry.1 = .str key.1 ∧ Gives child entry.2 key.2)
    (rawKeys entries) (n.keys.getD [])
  items : List.Forall₂ (Gives child) (entries.itemsAt "items") n.items
  members : List.Forall₂ (Gives child) ((entries.itemsAt "matches").filterMap plainMember?) n.members
  guards : List.Forall₂ (fun raw g => g.Origin child raw.entriesOf) (rawGuards entries) n.guards

theorem readKeys_origin {entries : Entries} {path : Path} {keys : Option (List (String × Node))}
    (h : readPart (readKeys child) none entries "keys" path = .ok keys) :
    List.Forall₂ (fun entry key => entry.1 = .str key.1 ∧ Gives child entry.2 key.2)
      (rawKeys entries) (keys.getD []) := by
  unfold rawKeys
  rcases readPart_ok h with ⟨raw, hget, h⟩ | ⟨hget, rfl⟩
  · rw [hget]
    unfold readKeys at h
    split at h
    · cases h
      exact .nil
    · simp only [Outcome.bind_ok, Outcome.pure_ok] at h
      obtain ⟨raws, hraws, keys, hkeys, rfl⟩ := h
      obtain rfl := asEntries_ok hraws
      refine (Outcome.mapM_forall₂ hkeys).imp ?_
      rintro ⟨name, value⟩ key hread
      cases name <;> try cases hread
      obtain ⟨node, hnode, h⟩ := Outcome.bind_ok.1 hread
      cases h
      exact ⟨rfl, _, hnode⟩
  · rw [hget]
    exact .nil

/-- A part that is a sequence is read item by item, if it is there. -/
theorem readSequence_origin {α : Type} {read : Value → Path → Checked α} {entries : Entries}
    {name : String} {path : Path} {as : List α}
    (h : readPart (fun raw p => raw.asItems p >>= fun items => readEach read items p) [] entries
      name path = .ok as) :
    List.Forall₂ (fun item a => ∃ p, read item p = .ok a) (entries.itemsAt name) as := by
  unfold Entries.itemsAt
  rcases readPart_ok h with ⟨raw, hget, h⟩ | ⟨hget, rfl⟩
  · obtain ⟨items, hitems, h⟩ := Outcome.bind_ok.1 h
    rw [hget, Option.bind_some, asItems_ok hitems]
    exact readEach_forall₂ h
  · rw [hget]
    exact .nil

/-- A member of alternatives is a plain one with its description, or a conditional. -/
inductive MemberOrigin (child : ChildReader) (raw : Value) : Node ⊕ Guard Node → Prop where
  | plain {v : Value} {m : Node} (hv : plainMember? raw = some v) (h : Gives child v m) :
    MemberOrigin child raw (.inl m)
  | guarded {g : Guard Node} (hnone : plainMember? raw = none)
    (h : g.Origin child raw.entriesOf) : MemberOrigin child raw (.inr g)

theorem readMatch_origin {raw : Value} {path : Path} {member : Node ⊕ Guard Node}
    (h : readMatch child raw path = .ok member) : MemberOrigin child raw member := by
  unfold readMatch at h
  split at h
  · rename_i entries
    have hentries : (Value.map entries).entriesOf = entries := rfl
    split at h
    · rename_i schema hschema
      obtain ⟨node, hnode, h⟩ := Outcome.bind_ok.1 h
      cases h
      exact .plain (by simp only [plainMember?, hentries, hschema]) ⟨_, hnode⟩
    · rename_i hschema
      split at h
      · rename_i htype
        obtain ⟨node, hnode, h⟩ := Outcome.bind_ok.1 h
        cases h
        exact .plain (by simp only [plainMember?, hentries, hschema, htype, if_true]) ⟨_, hnode⟩
      · rename_i htype
        obtain ⟨guard, hguard, h⟩ := Outcome.bind_ok.1 h
        cases h
        exact .guarded (by simp [plainMember?, hentries, hschema, htype]) (readGuard_origin hguard)
  · cases h

/-- Members that are sorted into plain and conditional ones keep their order. -/
theorem members_origin {items : List Value} {members : List (Node ⊕ Guard Node)}
    (h : List.Forall₂ (MemberOrigin child) items members) :
    List.Forall₂ (Gives child) (items.filterMap plainMember?) (members.filterMap Sum.getLeft?) ∧
      List.Forall₂ (fun raw g => g.Origin child raw.entriesOf)
        (items.filter fun member => (plainMember? member).isNone)
        (members.filterMap Sum.getRight?) := by
  induction h with
  | nil => exact ⟨.nil, .nil⟩
  | @cons item member items members hmember _ ih =>
    cases hmember with
    | plain hv hgives =>
      simp only [List.filterMap_cons, hv, Sum.getLeft?_inl, Sum.getRight?_inl, List.filter_cons,
        Option.isNone_some, Bool.false_eq_true, if_false]
      exact ⟨.cons hgives ih.1, ih.2⟩
    | guarded hnone hguard =>
      simp only [List.filterMap_cons, hnone, Sum.getLeft?_inr, Sum.getRight?_inr, List.filter_cons,
        Option.isNone_none, if_true]
      exact ⟨ih.1, .cons hguard ih.2⟩

theorem readMembers_origin {entries : Entries} {kind : Kind} {path : Path}
    {r : List Node × List (Guard Node)} (h : readMembers child entries kind path = .ok r) :
    List.Forall₂ (Gives child) ((entries.itemsAt "matches").filterMap plainMember?) r.1 ∧
      List.Forall₂ (fun raw g => g.Origin child raw.entriesOf)
        ((entries.itemsAt "matches").filter fun member => (plainMember? member).isNone) r.2 := by
  unfold readMembers at h
  unfold Entries.itemsAt
  split at h
  · rename_i raw hget
    simp only [readMatches, Outcome.bind_ok] at h
    obtain ⟨items, hitems, members, hmembers, h⟩ := h
    have hsorted := members_origin ((readEach_forall₂ hmembers).imp fun item member hread => by
      obtain ⟨p, hp⟩ := hread
      exact readMatch_origin hp)
    rw [hget, Option.bind_some, asItems_ok hitems]
    split at h
    · cases h
    · split at h <;> cases h
      exact hsorted
  · rename_i hget
    rw [hget]
    split at h <;> cases h
    exact ⟨.nil, .nil⟩

namespace Origin

variable {entries : Entries} {n : Node} (h : n.Origin child entries)
include h

theorem content : List.Forall₂ (Gives child) (rawContent entries) n.content := by
  have hkeys : List.Forall₂ (Gives child) ((rawKeys entries).map Prod.snd)
      ((n.keys.getD []).map Prod.snd) :=
    List.forall₂_map_left_iff.2 (List.forall₂_map_right_iff.2 (h.keys.imp fun _ _ hkey => hkey.2))
  exact List.rel_append (List.rel_append hkeys h.items) h.members

theorem branches : ∀ m ∈ n.branches, ∃ v ∈ (Value.map entries).keptInner, Gives child v m := by
  intro m hm
  obtain ⟨g, hg, hm⟩ := List.mem_flatMap.1 hm
  obtain ⟨raw, hraw, horigin⟩ := forall₂_mem_right h.guards g hg
  obtain ⟨v, hv, hgives⟩ := horigin.branches_gives m hm
  exact ⟨v, List.mem_append_right _ (List.mem_flatMap.2 ⟨raw, hraw, hv⟩), hgives⟩

theorem conditions : ∀ m ∈ n.conditions,
    Case.Compares m ∨ ∃ v ∈ (Value.map entries).keptInner, Gives child v m := by
  intro m hm
  obtain ⟨g, hg, hm⟩ := List.mem_flatMap.1 hm
  obtain ⟨raw, hraw, horigin⟩ := forall₂_mem_right h.guards g hg
  rcases horigin.conditions_gives m hm with hm | ⟨v, hv, hgives⟩
  · exact .inl hm
  · exact .inr ⟨v, List.mem_append_right _ (List.mem_flatMap.2 ⟨raw, hraw, hv⟩), hgives⟩

end Origin

namespace Reads

variable {entries : Entries} {path : Path} {n : Node} (h : n.Reads child entries path)
include h

theorem origin : n.Origin child entries := by
  obtain ⟨members, whens, hmembers, hwhens, hguards⟩ := h.guards
  obtain ⟨hplain, hguarded⟩ := readMembers_origin hmembers
  refine ⟨readKeys_origin h.keys, readSequence_origin h.items, hplain, ?_⟩
  rw [hguards]
  refine List.rel_append hguarded ((readSequence_origin hwhens).imp fun raw g hread => ?_)
  obtain ⟨p, hp⟩ := hread
  exact readGuard_origin hp

theorem content_readBy : ∀ m ∈ n.content, ReadBy child m := by
  intro m hm
  obtain ⟨v, -, hv⟩ := forall₂_mem_right h.origin.content m hm
  exact ⟨v, hv⟩

theorem branches_readBy : ∀ m ∈ n.branches, ReadBy child m := by
  intro m hm
  obtain ⟨v, -, hv⟩ := h.origin.branches m hm
  exact ⟨v, hv⟩

theorem conditions_readBy : ∀ m ∈ n.conditions, ReadBy child m ∨ Case.Compares m := by
  intro m hm
  rcases h.origin.conditions m hm with hm | ⟨v, -, hv⟩
  · exact .inr hm
  · exact .inl ⟨v, hv⟩

end Reads

/-! ## Whole descriptions -/

/-- What holds of everything a reader builds or supplies holds on all levels of a description. What is
known of the description has to be known of the descriptions inside it too. -/
theorem read_all {V : Value → Prop} {P : Node → Prop} (hinner : ∀ v w, V v → w ∈ v.inner → V w)
    (hreads : ∀ {child entries path n}, V (.map entries) → Reads child entries path n → P n)
    (hcompares : ∀ {n}, Case.Compares n → P n) {limit : Int} {levels : Nat} {raw : Value}
    {path : Path} {n : Node} (hraw : V raw) (h : read limit levels raw path = .ok n) : n.All P := by
  induction levels generalizing raw path n with
  | zero => cases h
  | succ levels ih =>
    obtain ⟨entries, rfl, hn⟩ := readLevel_ok h
    have hchild : ∀ v ∈ (Value.map entries).keptInner, ∀ m, Gives (read limit levels) v m →
        m.All P := by
      rintro v hv m ⟨path, hm⟩
      exact ih (hinner _ v hraw (Value.mem_inner.2 (.inl hv))) hm
    refine .intro (hreads hraw hn) (fun m hm => ?_) (fun m hm => ?_) fun m hm => ?_
    · obtain ⟨v, hv, hgives⟩ := forall₂_mem_right hn.origin.content m hm
      exact hchild v (List.mem_append_left _ hv) m hgives
    · obtain ⟨v, hv, hgives⟩ := hn.origin.branches m hm
      exact hchild v hv m hgives
    · rcases hn.origin.conditions m hm with hm | ⟨v, hv, hgives⟩
      · obtain ⟨hcontent, hbranches, hconditions⟩ := hm.parts
        exact .intro (hcompares hm) (by simp [hcontent]) (by simp [hbranches]) (by simp [hconditions])
      · exact hchild v hv m hgives

end Node

end Schemata
