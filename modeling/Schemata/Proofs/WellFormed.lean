import Schemata.Proofs.Fragments
import Schemata.Proofs.NodePaths
/-!
Nodes that are read are well formed.

Reading refuses whatever the writers could not make sense of: children on nodes of the wrong kind,
alternatives without members, conditionals without cases or branches, names that are no identifiers,
values that are no scalars. `Node.WellFormed` lists what is left. It holds of every node on every
level, conditions that compare with values included, because each level is read by the same checks.

Component: the reader of nodes, `Node.ofValue`. Main results:
- `checkContainers_ok` — children are only found on the kind of node they belong to;
- `Node.ofValue_wellFormed` — every node of a description that is read is well formed.
-/

namespace Schemata

/-! ## Distinct names inside a description -/

namespace Value

theorem hasDistinctNames_of_entry {entries : Entries} (h : entriesHaveDistinctNames entries = true) :
    ∀ entry ∈ entries, entry.2.hasDistinctNames = true := by
  induction entries with
  | nil => simp
  | cons entry rest ih =>
    obtain ⟨key, value⟩ := entry
    simp only [entriesHaveDistinctNames, Bool.and_eq_true] at h
    exact List.forall_mem_cons.2 ⟨h.1.2, ih h.2⟩

theorem hasDistinctNames_of_items? {raw : Value} {items : List Value}
    (h : raw.hasDistinctNames = true) (hitems : raw.items? = some items) :
    ∀ item ∈ items, item.hasDistinctNames = true := by
  cases raw <;> cases hitems <;> rw [hasDistinctNames] at h
  all_goals exact hasDistinctNames_of_mem h

theorem entriesOf_distinct {raw : Value} (h : raw.hasDistinctNames = true) :
    entriesHaveDistinctNames raw.entriesOf = true := by
  cases raw with
  | map entries => rwa [hasDistinctNames] at h
  | _ => rfl

theorem hasDistinctNames_of_given? {entries : Entries} {name : String} {v : Value}
    (h : entriesHaveDistinctNames entries = true) (hv : entries.given? name = some v) :
    v.hasDistinctNames = true := by
  unfold Entries.given? Entries.field at hv
  cases hget : entries.get? name with
  | none =>
    rw [hget] at hv
    cases hv
  | some w =>
    rw [hget, Option.getD_some] at hv
    have hw := hasDistinctNames_of_get? h hget
    split at hv <;> cases hv
    exact hw

theorem hasDistinctNames_of_itemsAt {entries : Entries} {name : String}
    (h : entriesHaveDistinctNames entries = true) :
    ∀ v ∈ entries.itemsAt name, v.hasDistinctNames = true := by
  unfold Entries.itemsAt
  cases hget : entries.get? name with
  | none => simp
  | some raw =>
    cases hitems : raw.items? with
    | none => simp [hitems]
    | some items =>
      have hmem := hasDistinctNames_of_items? (hasDistinctNames_of_get? h hget) hitems
      simpa [hitems] using hmem

end Value

open Value

theorem Case.inner_distinct {raw : Entries} (h : entriesHaveDistinctNames raw = true) :
    ∀ v ∈ inner raw, v.hasDistinctNames = true := by
  intro v hv
  rcases List.mem_append.1 hv with hv | hv
  · have htest : (raw.get? "is" <|> raw.get? "not") = some v :=
      (Option.filter_eq_some_iff.1 (Option.mem_toList.1 hv)).1
    cases his : raw.get? "is" with
    | none =>
      rw [his] at htest
      exact hasDistinctNames_of_get? h htest
    | some test =>
      rw [his] at htest
      cases htest
      exact hasDistinctNames_of_get? h his
  · exact hasDistinctNames_of_given? h (Option.mem_toList.1 hv)

theorem Guard.inner_distinct {raw : Entries} (h : entriesHaveDistinctNames raw = true) :
    ∀ v ∈ inner raw, v.hasDistinctNames = true := by
  -- The cases of a switch are entries of their own; without one the conditional is its only case.
  have hswitch : ∀ item ∈ ((raw.get? "switch").bind items?).getD [],
      entriesHaveDistinctNames item.entriesOf = true :=
    fun item hitem => entriesOf_distinct (hasDistinctNames_of_itemsAt h item hitem)
  intro v hv
  rcases List.mem_append.1 hv with hv | hv
  · obtain ⟨case, hcase, hv⟩ := List.mem_flatMap.1 hv
    refine Case.inner_distinct ?_ v hv
    unfold rawCases at hcase
    cases hget : raw.get? "switch" with
    | none =>
      rw [hget] at hcase
      rwa [List.mem_singleton.1 hcase]
    | some switch =>
      rw [hget] at hcase hswitch
      obtain ⟨item, hitem, rfl⟩ := List.mem_map.1 hcase
      exact hswitch item hitem
  · rcases List.mem_append.1 (List.reduceOption_mem_iff.1 hv) with hv | hv
    · unfold switchFallbacks at hv
      cases hget : raw.get? "switch" with
      | none =>
        rw [hget] at hv
        cases hv
      | some switch =>
        rw [hget] at hv hswitch
        obtain ⟨item, hitem, hv⟩ := List.mem_map.1 hv
        exact hasDistinctNames_of_given? (hswitch item hitem) hv
    · exact hasDistinctNames_of_given? h (List.mem_singleton.1 hv).symm

theorem Node.plainMember?_distinct {raw v : Value} (h : raw.hasDistinctNames = true)
    (hv : plainMember? raw = some v) : v.hasDistinctNames = true := by
  unfold plainMember? at hv
  split at hv
  · rename_i schema hschema
    cases hv
    exact hasDistinctNames_of_get? (entriesOf_distinct h) hschema
  · split at hv <;> cases hv
    exact h

theorem Node.rawKeys_distinct {entries : Entries} (h : entriesHaveDistinctNames entries = true) :
    entriesHaveDistinctNames (rawKeys entries) = true := by
  unfold rawKeys
  cases hget : entries.get? "keys" with
  | none => rfl
  | some raw => exact entriesOf_distinct (hasDistinctNames_of_get? h hget)

/-- With distinct names on all levels, the descriptions one level below have them too. -/
theorem Value.inner_distinct {raw : Value} (h : raw.hasDistinctNames = true) :
    ∀ v ∈ raw.inner, v.hasDistinctNames = true := by
  have hentries := entriesOf_distinct h
  intro v hv
  rcases List.mem_append.1 hv with hv | hv
  · rcases List.mem_append.1 hv with hv | hv
    · rcases List.mem_append.1 hv with hv | hv
      · obtain ⟨entry, hentry, rfl⟩ := List.mem_map.1 hv
        exact hasDistinctNames_of_entry (Node.rawKeys_distinct hentries) entry hentry
      · exact hasDistinctNames_of_itemsAt hentries v hv
    · obtain ⟨member, hmember, hv⟩ := List.mem_filterMap.1 hv
      exact Node.plainMember?_distinct (hasDistinctNames_of_itemsAt hentries member hmember) hv
  · obtain ⟨guard, hguard, hv⟩ := List.mem_flatMap.1 hv
    refine Guard.inner_distinct (entriesOf_distinct ?_) v hv
    rcases List.mem_append.1 hguard with hguard | hguard
    · exact hasDistinctNames_of_itemsAt hentries guard (List.mem_of_mem_filter hguard)
    · exact hasDistinctNames_of_itemsAt hentries guard hguard

namespace Node

/-! ## The checks of one level -/

/-- Children are only found on the kind of node they belong to, and alternatives have members, plain or
conditional ones. -/
structure Housed (n : Node) : Prop where
  keys : n.keys.isSome = true → n.kind = .object
  items : n.items ≠ [] → n.kind = .array
  members : n.members ≠ [] → n.kind = .alternatives
  alternatives : n.kind = .alternatives → n.members ≠ [] ∨ n.guards ≠ []

/-- What every node that is read satisfies. -/
structure WellFormed (n : Node) : Prop extends n.Housed where
  names : ((n.keys.getD []).map Prod.fst).Nodup
  guards : ∀ g ∈ n.guards, g.cases ≠ [] ∧ g.branches ≠ []
  forbidden : n.kind = .forbidden → n.flags = { presence := some .forbidden }
  name : n.WellNamed
  values : ∀ v ∈ n.valids ++ n.allow ++ n.invalids, v.isScalar = true ∧ v.isFinite = true

/-- Children are only found on the kind of node they belong to. -/
theorem checkContainers_ok {entries : Entries} {kind : Kind} {path : Path}
    (h : checkContainers entries kind path = .ok ()) :
    ∀ key owner, (key, owner) ∈ childKeys → entries.has key = true → kind = owner := by
  unfold checkContainers at h
  split at h
  · cases h
  · rename_i hnone
    intro key owner hmem hhas
    have hfound := List.find?_eq_none.1 hnone (key, owner) hmem
    simpa [hhas] using hfound

theorem has_of_itemsAt {entries : Entries} {name : String} {v : Value}
    (h : v ∈ entries.itemsAt name) : entries.has name = true := by
  unfold Entries.itemsAt at h
  unfold Entries.has
  cases hget : entries.get? name with
  | none =>
    rw [hget] at h
    cases h
  | some raw => rfl

theorem readMembers_nonempty {child : ChildReader} {entries : Entries} {path : Path}
    {r : List Node × List (Guard Node)}
    (h : readMembers child entries .alternatives path = .ok r) : r.1 ≠ [] ∨ r.2 ≠ [] := by
  unfold readMembers at h
  split at h
  · simp only [readMatches, Outcome.bind_ok] at h
    obtain ⟨items, -, members, -, h⟩ := h
    split at h
    · cases h
    · split at h
      · cases h
      · rename_i hempty
        cases h
        simpa only [Bool.and_eq_true, List.isEmpty_iff, not_and_or] using hempty
  · cases h

theorem readFlags_forbidden {raw : Entries} {path : Path} {flags : Flags}
    (h : readFlags raw .forbidden path = .ok flags) : flags = { presence := some .forbidden } := by
  obtain ⟨_, -, h⟩ := Outcome.bind_ok.1 h
  exact (Except.ok.inj h).symm

theorem readLiterals_scalar {raw : Value} {path : Path} {values : List Value}
    (h : readLiterals raw path = .ok values) :
    ∀ v ∈ values, v.isScalar = true ∧ v.isFinite = true := by
  unfold readLiterals at h
  split at h
  · cases h
    simp
  · simp only [Outcome.bind_ok, Outcome.pure_ok] at h
    obtain ⟨items, -, _, hcheck, rfl⟩ := h
    exact checkLiterals_scalar hcheck

namespace Reads

variable {child : ChildReader} {entries : Entries} {path : Path} {n : Node}
  (h : n.Reads child entries path)
include h

theorem has_of_keys (hkeys : n.keys.isSome = true) : entries.has "keys" = true := by
  rcases readPart_ok h.keys with ⟨raw, hget, -⟩ | ⟨-, hnone⟩
  · rw [Entries.has, hget]
    rfl
  · rw [hnone] at hkeys
    cases hkeys

theorem has_of_items (hitems : n.items ≠ []) : entries.has "items" = true := by
  obtain ⟨m, hm⟩ := List.exists_mem_of_ne_nil _ hitems
  obtain ⟨v, hv, -⟩ := forall₂_mem_right h.origin.items m hm
  exact has_of_itemsAt hv

theorem has_of_members (hmembers : n.members ≠ []) : entries.has "matches" = true := by
  obtain ⟨m, hm⟩ := List.exists_mem_of_ne_nil _ hmembers
  obtain ⟨v, hv, -⟩ := forall₂_mem_right h.origin.members m hm
  obtain ⟨member, hmember, -⟩ := List.mem_filterMap.1 hv
  exact has_of_itemsAt hmember

theorem members_or_guards (hkind : n.kind = .alternatives) : n.members ≠ [] ∨ n.guards ≠ [] := by
  obtain ⟨members, whens, hmembers, -, hguards⟩ := h.guards
  rw [hkind] at hmembers
  rcases readMembers_nonempty hmembers with hplain | hguarded
  · exact .inl hplain
  · refine .inr fun hnil => hguarded ?_
    exact (List.append_eq_nil_iff.1 (hguards ▸ hnil)).1

theorem names_nodup (hdistinct : entriesHaveDistinctNames entries = true) :
    ((n.keys.getD []).map Prod.fst).Nodup := by
  have hnames := names_of_forall₂ (P := fun _ => True)
    (h.origin.keys.imp fun _ _ hkey => ⟨hkey.1, trivial⟩)
  rw [← hnames.1]
  exact Entries.names_nodup (rawKeys_distinct hdistinct)

theorem values_scalar :
    ∀ v ∈ n.valids ++ n.allow ++ n.invalids, v.isScalar = true ∧ v.isFinite = true := by
  obtain ⟨valids, allow, invalids, invalid, hvalids, hallow, hinvalids, hinvalid, hlists, hinv⟩ :=
    h.literals
  have hvalids := readLiterals_scalar hvalids
  have hallow := readLiterals_scalar hallow
  have hinvalids := List.forall_mem_append.2
    ⟨readLiterals_scalar hinvalids, readLiterals_scalar hinvalid⟩
  rw [hinv, List.forall_mem_append]
  refine ⟨?_, hinvalids⟩
  rcases hlists with ⟨hv, ha⟩ | ⟨hv, ha⟩
  · rw [hv, ha, List.append_nil]
    exact List.forall_mem_append.2 ⟨hvalids, hallow⟩
  · rw [hv, ha]
    exact List.forall_mem_append.2 ⟨hvalids, hallow⟩

theorem housed : n.Housed where
  keys hkeys := checkContainers_ok h.containers _ _ (by simp [childKeys]) (h.has_of_keys hkeys)
  items hitems := checkContainers_ok h.containers _ _ (by simp [childKeys]) (h.has_of_items hitems)
  members hmembers :=
    checkContainers_ok h.containers _ _ (by simp [childKeys]) (h.has_of_members hmembers)
  alternatives := h.members_or_guards

theorem wellFormed (hdistinct : entriesHaveDistinctNames entries = true) : n.WellFormed where
  toHoused := h.housed
  names := h.names_nodup hdistinct
  guards g hg := by
    obtain ⟨raw, -, horigin⟩ := forall₂_mem_right h.origin.guards g hg
    exact ⟨horigin.nonempty, horigin.branch⟩
  forbidden hkind := by
    obtain ⟨raw, -, hflags⟩ := h.flags
    exact readFlags_forbidden (hkind ▸ hflags)
  name := by
    obtain ⟨metas, -, hname⟩ := h.name
    exact lastName_isIdentifier (by simp) hname
  values := h.values_scalar

end Reads

end Node

theorem Case.Compares.housed {n : Node} (h : Case.Compares n) : n.Housed where
  keys hkeys := by cases h <;> cases hkeys
  items hitems := by cases h <;> exact absurd rfl hitems
  members hmembers := by cases h <;> exact absurd rfl hmembers
  alternatives hkind := by cases h <;> cases hkind

theorem Case.Compares.values_scalar {n : Node} (h : Case.Compares n) :
    ∀ v ∈ n.valids ++ n.allow ++ n.invalids, v.isScalar = true ∧ v.isFinite = true := by
  cases h with
  | present path => simp [presentCondition, Value.isScalar, Value.isFinite]
  | listed path hvalues => simpa [listedCondition] using hvalues

theorem Case.Compares.wellFormed {n : Node} (h : Case.Compares n) : n.WellFormed where
  toHoused := h.housed
  names := by cases h <;> exact .nil
  guards g hg := by cases h <;> cases hg
  forbidden hkind := by cases h <;> cases hkind
  name _ hname := by cases h <;> cases hname
  values := h.values_scalar

/-! ## All levels -/

/-- In a description that is read, children are where they belong. -/
theorem Node.read_housed {limit : Int} {levels : Nat} {raw : Value} {path : Path} {n : Node}
    (h : read limit levels raw path = .ok n) : n.All Housed :=
  read_all (V := fun _ => True) (fun _ _ _ _ => trivial) (fun _ hn => hn.housed)
    (fun hn => hn.housed) trivial h

/-- Whatever limit a description is read with, if no map in it has an entry twice then every node that
comes out, conditions and branches included, is well formed. -/
theorem Node.ofValue_wellFormed {limit : Int} {raw : Value} {n : Node}
    (hraw : raw.hasDistinctNames = true) (h : ofValue limit raw = .ok n) : n.All WellFormed := by
  refine read_all (V := fun v => v.hasDistinctNames = true) (fun _ w hv hw => inner_distinct hv w hw)
    (fun hv hn => ?_) (fun hn => hn.wellFormed) hraw h
  exact hn.wellFormed (entriesOf_distinct hv)

/-- A named object with a conditional member, a list of named items and a forbidden property. -/
theorem Node.ofValue_wellFormed_nested :
    let description : Value :=
      .map [(.str "type", .str "object"),
        (.str "metas", .list [.map [(.str "className", .str "User")]]),
        (.str "keys", .map
          [(.str "role", .map [(.str "type", .str "alternatives"), (.str "matches", .list [.map
              [(.str "ref", .str "kind"), (.str "is", .tuple [.int 1, .str "one"]),
                (.str "then", .map [(.str "type", .str "string"), (.str "invalids", .list [.str ""])]),
                (.str "otherwise", .map [(.str "type", .str "forbidden"),
                  (.str "flags", .map [(.str "label", .str "none")])])]])]),
            (.str "tags", .map [(.str "type", .str "array"), (.str "items", .list [.map
              [(.str "type", .str "string"), (.str "valids", .list [.str "a", .null])]])])])]
    description.hasDistinctNames = true ∧
      ∃ root, ofValue 3 description = .ok root ∧ root.All WellFormed := by
  refine ⟨by decide, ?root, ?hread, ofValue_wellFormed (by decide) ?hread⟩
  case hread => rfl

end Schemata
