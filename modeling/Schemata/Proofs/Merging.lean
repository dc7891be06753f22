import Schemata.Proofs.NamedThings
import Schemata.Proofs.Unions
/-!
What merging a branch into its base gives.

Merging succeeds as soon as the kinds of the two nodes fit, unless the branch has conditionals of its
own. The properties of the branch are laid over those of the base: a name that the base has keeps its
place, any other name is added at the end, and the property of the branch wins. Nobody checks a merged
node again, but it is as well formed as the two nodes it is made of: whatever holds children decides
the kind, because only `any` gives way and `any` holds none.

Component: the merging of a branch into its base, `Node.merge`. Main results:
- `Housed.merge` — a merged node holds its children where they belong;
- `merge_overlays` — what a merge gives, part by part, and when it fails.
-/

namespace Schemata

namespace Node

/-- The names of the properties of a node, in order. -/
def keyNames (n : Node) : List String := Named.names (n.keys.getD [])

/-! ## Kinds -/

theorem mergeKind?_isSome {base branch : Kind} :
    (mergeKind? base branch).isSome = true ↔ branch = .any ∨ branch = base ∨ base = .any := by
  unfold mergeKind?
  by_cases hany : branch = .any
  · simp [hany]
  · by_cases hfits : branch = base ∨ base = .any
    · simp [hany, hfits]
    · simp [hany, hfits]

/-- Only `any` gives way: a kind that is not `any` is the kind of the merged node. -/
theorem mergeKind?_eq {base branch kind owner : Kind} (h : mergeKind? base branch = some kind)
    (howner : owner ≠ .any) (hfrom : base = owner ∨ branch = owner) : kind = owner := by
  unfold mergeKind? at h
  split at h
  · rename_i hany
    cases h
    exact hfrom.resolve_right fun hbranch => howner (hbranch ▸ hany)
  · split at h
    · rename_i hfits
      cases h
      rcases hfrom with hbase | hbranch
      · rcases hfits with hsame | hany
        · exact hsame.trans hbase
        · exact absurd (hbase.symm.trans hany) howner
      · exact hbranch
    · cases h

/-! ## Merged nodes -/

variable {base branch n : Node}

theorem merge_isOk_iff : (∃ n, base.merge branch = .ok n) ↔ branch.isForbidden = true ∨
    branch.guards = [] ∧
      (branch.kind = .any ∨ branch.kind = base.kind ∨ base.kind = .any) := by
  constructor
  · rintro ⟨n, h⟩
    rcases merge_ok h with ⟨hforbidden, -⟩ | ⟨-, hguards, kind, hkind, -⟩
    · exact .inl hforbidden
    · exact .inr ⟨hguards, mergeKind?_isSome.1 (Option.isSome_of_eq_some hkind)⟩
  · rintro (hforbidden | ⟨hguards, hkinds⟩)
    · exact ⟨_, by rw [merge, if_pos hforbidden]⟩
    · unfold merge
      split
      · exact ⟨_, rfl⟩
      · obtain ⟨kind, hkind⟩ := Option.isSome_iff_exists.1 (mergeKind?_isSome.2 hkinds)
        rw [hguards, hkind]
        exact ⟨_, rfl⟩

theorem keys_merge (h : base.merge branch = .ok n) (hbranch : branch.isForbidden = false) :
    n.keys = mergeKeys base.keys branch.keys := by
  rcases merge_ok h with ⟨hforbidden, -⟩ | ⟨-, -, kind, -, rfl⟩
  · rw [hbranch] at hforbidden
    cases hforbidden
  · rfl

theorem getD_mergeKeys (base branch : Option (Named Node)) :
    (mergeKeys base branch).getD [] =
      (branch.getD []).foldl (fun merged key => Named.put merged key.1 key.2) (base.getD []) := by
  cases branch <;> rfl

theorem housed_bareForbidden (presence : Option Presence) (path : Path) :
    (bareForbidden presence path).Housed where
  keys h := by cases h
  items h := absurd rfl h
  members h := absurd rfl h
  alternatives h := by cases h

/-- A merged node holds its children where they belong, if the base and the branch do. -/
theorem Housed.merge (h : base.merge branch = .ok n) (hguards : base.guards = [])
    (hbase : base.Housed) (hbranch : branch.Housed) : n.Housed := by
  have halternatives := Writing.hasMembers_merge h hguards hbase.alternatives hbranch.alternatives
  rcases merge_ok h with ⟨-, rfl⟩ | ⟨-, -, kind, hkind, rfl⟩
  · exact housed_bareForbidden _ _
  · have howned : ∀ {owner : Kind}, owner ≠ .any → base.kind = owner ∨ branch.kind = owner →
        kind = owner := fun howner hfrom => mergeKind?_eq hkind howner hfrom
    refine ⟨fun hkeys => howned (by decide) ?_, fun hitems => howned (by decide) ?_,
      fun hmembers => howned (by decide) ?_, halternatives⟩
    · cases hown : branch.keys with
      | none =>
        simp only [mergeKeys, hown] at hkeys
        exact .inl (hbase.keys hkeys)
      | some keys => exact .inr (hbranch.keys (by rw [hown]; rfl))
    · by_cases hnone : base.items = []
      · exact .inr (hbranch.items (by simpa [hnone] using hitems))
      · exact .inl (hbase.items hnone)
    · by_cases hnone : base.members = []
      · exact .inr (hbranch.members (by simpa [hnone] using hmembers))
      · exact .inl (hbase.members hnone)

/-- A branch can be merged into its base if it is forbidden, or if it has no conditionals and one of
the two kinds is `any` or they are equal. Unless the branch is forbidden, the names of the merged node
are distinct, each stands for the property of the branch or else for that of the base, and the names of
the base keep their places before the new ones of the branch, in their order. What holds children where
they belong still does after merging. -/
theorem merge_overlays (hbase : base.keyNames.Nodup) (hbranch : branch.keyNames.Nodup) :
    ((∃ n, base.merge branch = .ok n) ↔ branch.isForbidden = true ∨
      branch.guards = [] ∧
        (branch.kind = .any ∨ branch.kind = base.kind ∨ base.kind = .any)) ∧
      ∀ n, base.merge branch = .ok n →
        (branch.isForbidden = false →
          n.keyNames.Nodup ∧
            (∀ name, n.key? name = (branch.key? name <|> base.key? name)) ∧
            n.keyNames = base.keyNames ++ branch.keyNames.filter (· ∉ base.keyNames)) ∧
        (base.guards = [] → base.Housed → branch.Housed → n.Housed) := by
  refine ⟨merge_isOk_iff, fun n h => ⟨fun hforbidden => ?_, fun hguards => Housed.merge h hguards⟩⟩
  have hkeys : n.keys.getD [] = (branch.keys.getD []).foldl
      (fun merged key => Named.put merged key.1 key.2) (base.keys.getD []) := by
    rw [keys_merge h hforbidden, getD_mergeKeys]
  simp only [keyNames, key?, hkeys]
  exact ⟨Named.nodup_putAll hbase hbranch, Named.lookup_putAll hbranch, Named.names_putAll hbranch⟩

/-- An object with two properties, and a branch that replaces one of them and adds another. -/
theorem merge_overlays_object :
    let base : Node := { kind := .object, keys := some [("size", { kind := .number }),
      ("unit", { kind := .string })] }
    let branch : Node := { kind := .object, keys := some [("rate", { kind := .date }),
      ("size", { kind := .boolean })] }
    ∃ n, base.merge branch = .ok n ∧ n.keyNames = ["size", "unit", "rate"] ∧
      n.key? "size" = branch.key? "size" ∧ n.key? "unit" = base.key? "unit" ∧ n.Housed := by
  intro base branch
  obtain ⟨hok, hmerged⟩ := @merge_overlays base branch (by decide) (by decide)
  obtain ⟨n, hn⟩ := hok.2 (.inr ⟨rfl, .inr (.inl rfl)⟩)
  obtain ⟨hkeys, hhoused⟩ := hmerged n hn
  obtain ⟨-, hlookup, hnames⟩ := hkeys rfl
  have hobject : ∀ m : Node, m.kind = .object → m.items = [] → m.members = [] → m.Housed := by
    intro m hkind hitems hmembers
    refine ⟨fun _ => hkind, fun h => absurd hitems h, fun h => absurd hmembers h, fun h => ?_⟩
    rw [hkind] at h
    cases h
  refine ⟨n, hn, hnames.trans (by decide), hlookup "size", hlookup "unit", ?_⟩
  exact hhoused rfl (hobject base rfl rfl rfl) (hobject branch rfl rfl rfl)

end Node

end Schemata
