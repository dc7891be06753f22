import Schemata.Proofs.GuardSpelling
/-!
Nodes that are spelled differently.

A description is read in a fixed order, part by part. If every part of two descriptions is read alike,
so are the descriptions. Parts that the two have in common are read alike anyway, so it is enough to
look at the parts in which they differ.

Component: one level of the reader of nodes, `Node.readLevel`. Main results:
- `Node.PartsLike.readLevel` — descriptions that say the same, part by part, are read as the same
  node;
- `Node.read_steady` — what is read does not depend on the path, apart from the paths in it.
-/

namespace Schemata

open Checked

/-! ## Parts that are read alike -/

namespace Node

abbrev eraseKeys : Option (List (String × Node)) → Option (List (String × Node)) :=
  Option.map (List.map propertyWithoutPaths)

abbrev eraseMembers : List Node × List (Guard Node) → List Node × List (Guard Node) :=
  Prod.map (List.map withoutPaths) (List.map Guard.withoutPaths)

/-- The keys that are checked before anything else. -/
def headKeys : List String := ["type", "dependencies", "patterns", "renames", "ordered"]

structure PartsLike (child : ChildReader) (raw raw' : Entries) : Prop where
  head : ∀ name ∈ headKeys, raw.get? name = raw'.get? name
  containers : ∀ name ∈ childKeys.map Prod.fst, raw.has name = raw'.has name
  own : ∀ kind path path', (readOwn raw kind path).withoutPaths id =
    (readOwn raw' kind path').withoutPaths id
  invalids : ∀ path path', (readInvalids raw path).withoutPaths id =
    (readInvalids raw' path').withoutPaths id
  keys : ∀ path path', (readPart (readKeys child) none raw "keys" path).withoutPaths eraseKeys =
    (readPart (readKeys child) none raw' "keys" path').withoutPaths eraseKeys
  items : ∀ path path',
    (readPart (readItems child) [] raw "items" path).withoutPaths (List.map withoutPaths) =
      (readPart (readItems child) [] raw' "items" path').withoutPaths (List.map withoutPaths)
  members : ∀ kind path path', (readMembers child raw kind path).withoutPaths eraseMembers =
    (readMembers child raw' kind path').withoutPaths eraseMembers
  whens : ∀ path path',
    (readPart (readWhens child) [] raw "whens" path).withoutPaths (List.map Guard.withoutPaths) =
      (readPart (readWhens child) [] raw' "whens" path').withoutPaths (List.map Guard.withoutPaths)
  name : ∀ path path', (readNaming raw path).withoutPaths id =
    (readNaming raw' path').withoutPaths id

namespace PartsLike

variable {child : ChildReader} {raw raw' : Entries} (h : PartsLike child raw raw')
include h

theorem field_eq {name : String} (hname : name ∈ headKeys) : raw.field name = raw'.field name := by
  exact Entries.field_congr (h.head name hname)

theorem readKind (path path' : Path) :
    (Node.readKind raw path).withoutPaths id = (Node.readKind raw' path').withoutPaths id := by
  unfold Node.readKind
  rw [h.field_eq (by decide)]
  split
  · split
    · rfl
    · split <;> rfl
  · rfl

theorem checkKeys (path path' : Path) :
    (Node.checkKeys raw path).withoutPaths id = (Node.checkKeys raw' path').withoutPaths id := by
  unfold Node.checkKeys
  -- Both look for the first key that holds something, and find the same one.
  generalize hfound : List.find? _ inexpressibleKeys = found
  generalize hfound' : List.find? _ inexpressibleKeys = found'
  obtain rfl : found = found' := by
    rw [← hfound, ← hfound']
    simp only [inexpressibleKeys, List.find?_cons, h.field_eq (by decide : "dependencies" ∈ headKeys),
      h.field_eq (by decide : "patterns" ∈ headKeys), h.field_eq (by decide : "renames" ∈ headKeys),
      h.field_eq (by decide : "ordered" ∈ headKeys), List.find?_nil]
  cases found <;> rfl

theorem checkContainers (kind : Kind) (path path' : Path) :
    (Node.checkContainers raw kind path).withoutPaths id =
      (Node.checkContainers raw' kind path').withoutPaths id := by
  unfold Node.checkContainers
  generalize hfound : List.find? _ childKeys = found
  generalize hfound' : List.find? _ childKeys = found'
  obtain rfl : found = found' := by
    rw [← hfound, ← hfound']
    simp only [childKeys, List.find?_cons, h.containers "keys" (by decide),
      h.containers "items" (by decide), h.containers "matches" (by decide), List.find?_nil]
  cases found <;> rfl

/-- Descriptions that say the same are read as the same node. -/
theorem readLevel (path path' : Path) :
    (Node.readLevel child (.map raw) path).withoutPaths withoutPaths =
      (Node.readLevel child (.map raw') path').withoutPaths withoutPaths := by
  simp only [readLevel_parts, asDescription, Outcome.ok_bind]
  refine withoutPaths_bind_id (h.readKind path path') fun kind => ?_
  refine withoutPaths_bind_id (h.checkKeys path path') fun _ => ?_
  refine withoutPaths_bind_id (h.checkContainers kind path path') fun _ => ?_
  refine withoutPaths_bind_id (h.own kind path path') fun own => ?_
  refine withoutPaths_bind_id (h.invalids path path') fun invalids => ?_
  refine withoutPaths_bind (h.keys path path') fun keys keys' hkeys => ?_
  refine withoutPaths_bind (h.items path path') fun items items' hitems => ?_
  refine withoutPaths_bind (h.members kind path path') fun members members' hmembers => ?_
  refine withoutPaths_bind (h.whens path path') fun whens whens' hwhens => ?_
  refine withoutPaths_bind_id (h.name path path') fun name => withoutPaths_ok ?_
  obtain ⟨hplain, hguarded⟩ := Prod.mk.inj hmembers
  simp only [withoutPaths_eq, List.map_append, hitems, hwhens, hplain, hguarded, Node.mk.injEq,
    and_true, true_and]
  exact hkeys

end PartsLike

/-! ## Descriptions that share most of their keys -/

/-- The keys that hold what a node says about its value. -/
def ownKeys : List String := ["flags", "rules", "valids", "allow"]

/-- The keys that hold the values a node does not accept. -/
def invalidKeys : List String := ["invalids", "invalid"]

/-- The keys that a name may be found under. -/
def nameKeys : List String := ["metas", "metadata"]

theorem readRules_of_eq {rawFlags rawFlags' raw raw' : Entries}
    (hinteger : rawFlags.field "integer" = rawFlags'.field "integer")
    (h : raw.field "rules" = raw'.field "rules") (path path' : Path) :
    (readRules rawFlags raw path).withoutPaths id =
      (readRules rawFlags' raw' path').withoutPaths id := by
  simp only [readRules, rulesWith, hinteger, h]
  exact withoutPaths_bind_id (Rule.readAll_steady _ _ _) fun rules => rfl

theorem readLists_of_eq {rawFlags rawFlags' raw raw' : Entries}
    (honly : rawFlags.field "only" = rawFlags'.field "only")
    (hvalids : raw.field "valids" = raw'.field "valids")
    (hallow : raw.field "allow" = raw'.field "allow") (path path' : Path) :
    (readLists rawFlags raw path).withoutPaths id =
      (readLists rawFlags' raw' path').withoutPaths id := by
  simp only [readLists, honly, hvalids, hallow]
  refine withoutPaths_bind_id (readLiterals_steady _ _ _) fun listed => ?_
  exact withoutPaths_bind_id (readLiterals_steady _ _ _) fun extra => rfl

theorem readSaid_like {rawFlags rawFlags' raw raw' : Entries} (hflags : Flags.Like rawFlags rawFlags')
    (hrules : ∀ path path', (readRules rawFlags raw path).withoutPaths id =
      (readRules rawFlags' raw' path').withoutPaths id)
    (hlists : ∀ path path', (readLists rawFlags raw path).withoutPaths id =
      (readLists rawFlags' raw' path').withoutPaths id) (kind : Kind) (path path' : Path) :
    (readSaid rawFlags raw kind path).withoutPaths id =
      (readSaid rawFlags' raw' kind path').withoutPaths id := by
  refine withoutPaths_bind_id (Flags.readFlags_like hflags _ _ _) fun flags => ?_
  refine withoutPaths_bind_id (hrules _ _) fun rules => ?_
  exact withoutPaths_bind_id (hlists _ _) fun lists => rfl

/-- Two nodes with the same flags say the same if their rules and their lists do. -/
theorem readOwn_like {raw raw' : Entries} (hflags : raw.field "flags" = raw'.field "flags")
    (hrules : ∀ rawFlags path path', (readRules rawFlags raw path).withoutPaths id =
      (readRules rawFlags raw' path').withoutPaths id)
    (hlists : ∀ rawFlags path path', (readLists rawFlags raw path).withoutPaths id =
      (readLists rawFlags raw' path').withoutPaths id) (kind : Kind) (path path' : Path) :
    (readOwn raw kind path).withoutPaths id = (readOwn raw' kind path').withoutPaths id := by
  unfold readOwn
  rw [hflags]
  refine withoutPaths_bind_id (Value.asEntries_steady _ _ _) fun rawFlags => ?_
  exact readSaid_like (.refl rawFlags) (hrules rawFlags) (hlists rawFlags) kind path path'

theorem readOwn_of_eq {raw raw' : Entries} (h : ∀ name ∈ ownKeys, raw.get? name = raw'.get? name)
    (kind : Kind) (path path' : Path) :
    (readOwn raw kind path).withoutPaths id = (readOwn raw' kind path').withoutPaths id := by
  have hfield : ∀ name ∈ ownKeys, raw.field name = raw'.field name :=
    fun name hname => Entries.field_congr (h name hname)
  refine readOwn_like (hfield "flags" (by decide)) (fun rawFlags => ?_) (fun rawFlags => ?_) kind path path'
  · exact readRules_of_eq rfl (hfield "rules" (by decide))
  · exact readLists_of_eq rfl (hfield "valids" (by decide)) (hfield "allow" (by decide))

theorem readOwn_of_object? {raw rawFlags : Entries} (h : (raw.field "flags").object? = some rawFlags)
    (kind : Kind) (path : Path) : readOwn raw kind path = readSaid rawFlags raw kind path := by
  rw [readOwn, Value.asEntries_of_object? h, Outcome.ok_bind]

theorem readInvalids_of_eq {raw raw' : Entries}
    (h : ∀ name ∈ invalidKeys, raw.get? name = raw'.get? name) (path path' : Path) :
    (readInvalids raw path).withoutPaths id = (readInvalids raw' path').withoutPaths id := by
  unfold readInvalids
  rw [Entries.field_congr (h "invalids" (by decide)), Entries.field_congr (h "invalid" (by decide))]
  refine withoutPaths_bind_id (readLiterals_steady _ _ _) fun invalids => ?_
  exact withoutPaths_bind_id (readLiterals_steady _ _ _) fun invalid => rfl

/-- Entries and the path they stand at, without the path. -/
theorem readListed_like (raw : Value) (path path' : Path) :
    (readListed raw path).withoutPaths (List.map Prod.fst) =
      (readListed raw path').withoutPaths (List.map Prod.fst) := by
  unfold readListed
  split
  · rfl
  · refine withoutPaths_bind_id (raw.asItems_steady _ _) fun items => ?_
    refine withoutPaths_readEach (List.forall₂_same.2 fun item _ path path' => ?_) path path'
    exact withoutPaths_bind_id (item.asEntries_steady _ _) fun entries => rfl

theorem addMetadata_like (raw : Value) {listed listed' : List (Entries × Path)}
    (h : listed.map Prod.fst = listed'.map Prod.fst) (path path' : Path) :
    (addMetadata raw path listed).withoutPaths (List.map Prod.fst) =
      (addMetadata raw path' listed').withoutPaths (List.map Prod.fst) := by
  unfold addMetadata
  split
  · exact withoutPaths_ok h
  · refine withoutPaths_bind_id (raw.asEntries_steady _ _) fun entries => withoutPaths_ok ?_
    simp only [List.map_append, h, List.map_cons, List.map_nil]

theorem readNaming_of_eq {raw raw' : Entries}
    (h : ∀ name ∈ nameKeys, raw.get? name = raw'.get? name) (path path' : Path) :
    (readNaming raw path).withoutPaths id = (readNaming raw' path').withoutPaths id := by
  simp only [readNaming, readMetas_eq]
  rw [Entries.field_congr (h "metas" (by decide)), Entries.field_congr (h "metadata" (by decide))]
  refine withoutPaths_bind (withoutPaths_bind (readListed_like _ _ _) fun listed listed' hlisted =>
    addMetadata_like _ hlisted _ _) fun metas metas' hmetas => ?_
  exact lastName_like hmetas none

section Parts
variable {child : ChildReader}

def KeysLike (child : ChildReader) (v v' : Value) : Prop := ∀ path path',
  (readKeys child v path).withoutPaths eraseKeys = (readKeys child v' path').withoutPaths eraseKeys

def readProperty (child : ChildReader) (path : Path) (entry : Value × Value) :
    Checked (String × Node) :=
  match entry.1 with
  | .str name => do
    let node ← child entry.2 (path.key name)
    return (name, node)
  | key => malformed (.propertyKey key) path

theorem readKeys_map (entries : Entries) (path : Path) :
    readKeys child (.map entries) path = (do
      let keys ← entries.mapM (readProperty child path)
      return some keys) := rfl

theorem readProperty_like {v v' : Value} (h : NodeLike child v v') (key : Value)
    (path path' : Path) : (readProperty child path (key, v)).withoutPaths propertyWithoutPaths =
      (readProperty child path' (key, v')).withoutPaths propertyWithoutPaths := by
  cases key with
  | str name =>
    exact withoutPaths_bind (h _ _) fun _ _ hnode => withoutPaths_ok (congrArg (Prod.mk name) hnode)
  | _ => rfl

theorem keysLike_map {entries entries' : Entries}
    (h : List.Forall₂ (fun entry entry' => entry.1 = entry'.1 ∧ NodeLike child entry.2 entry'.2)
      entries entries') : KeysLike child (.map entries) (.map entries') := by
  intro path path'
  rw [readKeys_map, readKeys_map]
  have hproperties : (entries.mapM (readProperty child path)).withoutPaths
        (List.map propertyWithoutPaths) =
      (entries'.mapM (readProperty child path')).withoutPaths (List.map propertyWithoutPaths) := by
    refine withoutPaths_mapM (h.imp ?_)
    rintro ⟨key, v⟩ ⟨_, v'⟩ ⟨rfl, hnode⟩
    exact readProperty_like hnode key path path'
  exact withoutPaths_bind hproperties fun _ _ hkeys => withoutPaths_ok (congrArg some hkeys)

theorem readPart_like {α γ : Type} {erase : α → γ} {reader : Value → Path → Checked α} {absent : α}
    {R : Value → Value → Prop} {raw raw' : Entries} {key : String}
    (hR : ∀ v v', R v v' → ∀ path path',
      (reader v path).withoutPaths erase = (reader v' path').withoutPaths erase)
    (h : Option.Rel R (raw.get? key) (raw'.get? key)) (path path' : Path) :
    (readPart reader absent raw key path).withoutPaths erase =
      (readPart reader absent raw' key path').withoutPaths erase := by
  unfold readPart
  generalize raw.get? key = v, raw'.get? key = v' at h
  cases h with
  | none => rfl
  | some h => exact hR _ _ h _ _

theorem has_of_rel {R : Value → Value → Prop} {raw raw' : Entries} {key : String}
    (h : Option.Rel R (raw.get? key) (raw'.get? key)) : raw.has key = raw'.has key := by
  unfold Entries.has
  generalize raw.get? key = v, raw'.get? key = v' at h
  cases h <;> rfl

/-- What is made of the members of alternatives. -/
def ofMembers (members : List (Node ⊕ Guard Node)) (path : Path) :
    Checked (List Node × List (Guard Node)) :=
  if !(members.filterMap Sum.getLeft?).isEmpty && !(members.filterMap Sum.getRight?).isEmpty then
    malformed .mixedMatches path
  else if (members.filterMap Sum.getLeft?).isEmpty && (members.filterMap Sum.getRight?).isEmpty then
    malformed .emptyMatches path
  else return (members.filterMap Sum.getLeft?, members.filterMap Sum.getRight?)

theorem readMatches_eq (raw : Value) (path : Path) : readMatches child raw path = (do
    let members ← readList (readMatch child) raw path
    ofMembers members path) := by
  simp only [readMatches, readList, bind_assoc]
  rfl

theorem filterMap_getLeft?_erase (members : List (Node ⊕ Guard Node)) :
    (members.filterMap Sum.getLeft?).map withoutPaths =
      (members.map eraseMember).filterMap Sum.getLeft? := by
  rw [List.map_filterMap, List.filterMap_map]
  congr 1
  funext member
  cases member <;> rfl

theorem filterMap_getRight?_erase (members : List (Node ⊕ Guard Node)) :
    (members.filterMap Sum.getRight?).map Guard.withoutPaths =
      (members.map eraseMember).filterMap Sum.getRight? := by
  rw [List.map_filterMap, List.filterMap_map]
  congr 1
  funext member
  cases member <;> rfl

theorem ofMembers_like {members members' : List (Node ⊕ Guard Node)}
    (h : members.map eraseMember = members'.map eraseMember) (path path' : Path) :
    (ofMembers members path).withoutPaths eraseMembers =
      (ofMembers members' path').withoutPaths eraseMembers := by
  have hleft : (members.filterMap Sum.getLeft?).map withoutPaths =
      (members'.filterMap Sum.getLeft?).map withoutPaths := by
    rw [filterMap_getLeft?_erase, filterMap_getLeft?_erase, h]
  have hright : (members.filterMap Sum.getRight?).map Guard.withoutPaths =
      (members'.filterMap Sum.getRight?).map Guard.withoutPaths := by
    rw [filterMap_getRight?_erase, filterMap_getRight?_erase, h]
  have hplain : (members.filterMap Sum.getLeft?).isEmpty =
      (members'.filterMap Sum.getLeft?).isEmpty := by
    simpa only [List.isEmpty_map] using congrArg List.isEmpty hleft
  have hguarded : (members.filterMap Sum.getRight?).isEmpty =
      (members'.filterMap Sum.getRight?).isEmpty := by
    simpa only [List.isEmpty_map] using congrArg List.isEmpty hright
  unfold ofMembers
  rw [hplain, hguarded]
  split
  · rfl
  · split
    · rfl
    · exact withoutPaths_ok (Prod.ext hleft hright)

variable (hsteady : ∀ v, NodeLike child v v)
include hsteady

theorem keysLike_self (v : Value) : KeysLike child v v := by
  cases v with
  | map entries => exact keysLike_map (List.forall₂_same.2 fun entry _ => ⟨rfl, hsteady entry.2⟩)
  | _ => exact fun _ _ => rfl

theorem readMembers_like {raw raw' : Entries}
    (h : Option.Rel (ListLike (MemberLike child)) (raw.get? "matches") (raw'.get? "matches"))
    (kind : Kind) (path path' : Path) : (readMembers child raw kind path).withoutPaths eraseMembers =
      (readMembers child raw' kind path').withoutPaths eraseMembers := by
  unfold readMembers
  generalize raw.get? "matches" = v, raw'.get? "matches" = v' at h
  cases h with
  | none =>
    simp only
    split <;> rfl
  | some h =>
    simp only [readMatches_eq]
    refine withoutPaths_bind (readList_like (fun _ _ h => h) (memberLike_self hsteady) h _ _)
      fun members members' hmembers => ?_
    exact ofMembers_like hmembers _ _

/-- Parts that are not changed are read alike; what is left to show is that those that are changed
are. -/
theorem PartsLike.of_sameBeside {keys : List String} {raw raw' : Entries}
    (h : Entries.SameBeside keys raw raw') (hhead : ∀ name ∈ headKeys, name ∉ keys)
    (hown : (∀ name ∈ ownKeys, name ∉ keys) ∨ ∀ kind path path',
      (readOwn raw kind path).withoutPaths id = (readOwn raw' kind path').withoutPaths id)
    (hinvalids : (∀ name ∈ invalidKeys, name ∉ keys) ∨ ∀ path path',
      (readInvalids raw path).withoutPaths id = (readInvalids raw' path').withoutPaths id)
    (hkeys : "keys" ∉ keys ∨ Option.Rel (KeysLike child) (raw.get? "keys") (raw'.get? "keys"))
    (hitems : "items" ∉ keys ∨
      Option.Rel (ListLike (NodeLike child)) (raw.get? "items") (raw'.get? "items"))
    (hmembers : "matches" ∉ keys ∨
      Option.Rel (ListLike (MemberLike child)) (raw.get? "matches") (raw'.get? "matches"))
    (hwhens : "whens" ∉ keys ∨
      Option.Rel (ListLike (GuardLike child)) (raw.get? "whens") (raw'.get? "whens"))
    (hname : (∀ name ∈ nameKeys, name ∉ keys) ∨ ∀ path path',
      (readNaming raw path).withoutPaths id = (readNaming raw' path').withoutPaths id) :
    PartsLike child raw raw' := by
  have hrel : ∀ {R : Value → Value → Prop} (key : String), (∀ v, R v v) →
      (key ∉ keys ∨ Option.Rel R (raw.get? key) (raw'.get? key)) →
      Option.Rel R (raw.get? key) (raw'.get? key) := by
    rintro R key hself (hkey | hkey)
    · rw [h key hkey]
      exact optionRel_self hself _
    · exact hkey
  have hlist : ∀ {R : Value → Value → Prop} (v : Value), ListLike R v v := fun v => .inl rfl
  have hkeys := hrel "keys" (keysLike_self hsteady) hkeys
  have hitems := hrel "items" hlist hitems
  have hmembers := hrel "matches" hlist hmembers
  have hwhens := hrel "whens" hlist hwhens
  exact
    { head := fun name hname => h name (hhead name hname)
      containers := by
        simp only [childKeys, List.map_cons, List.map_nil, List.forall_mem_cons]
        exact ⟨has_of_rel hkeys, has_of_rel hitems, has_of_rel hmembers, by simp⟩
      own := hown.elim (fun hown => readOwn_of_eq fun name hname => h name (hown name hname)) id
      invalids := hinvalids.elim
        (fun hinvalids => readInvalids_of_eq fun name hname => h name (hinvalids name hname)) id
      keys := readPart_like (fun _ _ hkeys => hkeys) hkeys
      items := readPart_like (fun _ _ hitems => readList_like (fun _ _ h => h) hsteady hitems) hitems
      members := readMembers_like hsteady hmembers
      whens := readPart_like
        (fun _ _ hwhens => readList_like (fun _ _ h => h) (guardLike_self hsteady) hwhens) hwhens
      name := hname.elim
        (fun hname => readNaming_of_eq fun name hmem => h name (hname name hmem)) id }

end Parts

/-- What is read does not depend on the path, apart from the paths in it. -/
theorem read_steady (limit : Int) (levels : Nat) (v : Value) :
    NodeLike (Node.read limit levels) v v := by
  induction levels generalizing v with
  | zero => exact fun _ _ => rfl
  | succ levels ih =>
    cases v with
    | map entries =>
      have hsame : Entries.SameBeside [] entries entries := fun _ _ => rfl
      exact (PartsLike.of_sameBeside ih hsame (by simp) (.inl (by simp)) (.inl (by simp))
        (.inl (by simp)) (.inl (by simp)) (.inl (by simp)) (.inl (by simp)) (.inl (by simp))).readLevel
    | _ =>
      intro path path'
      simp only [Node.read, readLevel_eq, asDescription, Outcome.malformed_bind]
      exact withoutPaths_malformed _ path path'

end Node

end Schemata
