import Schemata.Proofs.CutShort
import Schemata.Proofs.Reading
/-!
What a level reads of the levels below.

A level hands the descriptions inside it to the reader of the level below, and nothing else. Two
readers that do alike on these descriptions therefore read the level alike, and if one of them is cut
short on some of them, then so is the level. In the other direction, a level that is read has read all
descriptions inside it, those that are replaced later included.

Component: one level of the reader of nodes, `Node.readLevel`. Main results:
- `Node.readLevel_cutShort` — a level is cut short if the reader of the level below is;
- `Node.Origin.inner_gives` — a level that is read has read all descriptions inside it.
-/

namespace Schemata

open Outcome (CutShort)

variable {stops : CompileError → Prop} {child child' : ChildReader}

/-! ## Readers that are cut short -/

/-- On some descriptions, one reader is cut short compared with another. -/
def CutShortOn (stops : CompileError → Prop) (child child' : ChildReader) (raws : List Value) : Prop :=
  ∀ raw ∈ raws, ∀ path, CutShort stops (child raw path) (child' raw path)

theorem CutShortOn.of_mem {raws raws' : List Value} (h : CutShortOn stops child child' raws)
    (hsub : ∀ raw ∈ raws', raw ∈ raws) : CutShortOn stops child child' raws' :=
  fun raw hraw => h raw (hsub raw hraw)

theorem readEach_cutShort {α : Type} {read read' : Value → Path → Checked α} {items : List Value}
    (h : ∀ item ∈ items, ∀ path, CutShort stops (read item path) (read' item path)) (path : Path) :
    CutShort stops (readEach read items path) (readEach read' items path) := by
  apply CutShort.mapM
  intro pair hpair
  exact h pair.1 (List.fst_mem_of_mem_zipIdx hpair) _

/-- A part that is a sequence is cut short with the reader of its items. -/
theorem readSequence_cutShort {α : Type} {read read' : Value → Path → Checked α} {raw : Value}
    (h : ∀ items, raw.items? = some items → ∀ item ∈ items, ∀ path,
      CutShort stops (read item path) (read' item path)) (path : Path) :
    CutShort stops (raw.asItems path >>= fun items => readEach read items path)
      (raw.asItems path >>= fun items => readEach read' items path) := by
  apply (CutShort.refl _).bind_of
  intro items hitems
  exact readEach_cutShort (h items (asItems_ok hitems)) path

theorem readBranch_cutShort {entries : Entries} {name : String}
    (h : CutShortOn stops child child' (entries.given? name).toList) (path : Path) :
    CutShort stops (Case.readBranch child (entries.field name) path)
      (Case.readBranch child' (entries.field name) path) := by
  unfold Entries.given? at h
  cases hfield : entries.field name with
  | null => exact .refl _
  | _ =>
    rw [hfield] at h
    apply (h _ (by simp) path).bind
    intro node
    exact .refl _

theorem readCondition_cutShort {raw : Option Value}
    (h : CutShortOn stops child child' (raw.filter Case.isDescription).toList) (path : Path) :
    CutShort stops (Case.readCondition child raw path) (Case.readCondition child' raw path) := by
  unfold Case.readCondition
  cases raw with
  | none => exact .refl _
  | some v =>
    cases hv : Case.isDescription v with
    | true =>
      simp only [hv, if_true]
      exact h v (by simp [Option.filter, hv]) path
    | false =>
      simp only [hv, Bool.false_eq_true, if_false]
      exact .refl _

theorem readCase_cutShort {raw : Entries} (h : CutShortOn stops child child' (Case.inner raw))
    (path : Path) : CutShort stops (Case.read child raw path) (Case.read child' raw path) := by
  apply (CutShort.refl _).bind_of
  rintro ⟨negated, key⟩ hkey
  have htest : (raw.get? key).filter Case.isDescription = Case.describedTest? raw := by
    rw [Case.describedTest?, readTestKey_ok hkey]
  apply CutShort.bind
  · apply readCondition_cutShort
    rw [htest]
    exact h.of_mem fun v hv => List.mem_append_left _ hv
  · intro condition
    apply (readBranch_cutShort (h.of_mem fun v hv => List.mem_append_right _ hv) _).bind
    intro branch
    exact .refl _

theorem readSwitchCase_cutShort {raw : Value}
    (hcase : CutShortOn stops child child' (Case.inner raw.entriesOf))
    (hotherwise : CutShortOn stops child child' (raw.entriesOf.given? "otherwise").toList)
    (path : Path) :
    CutShort stops (Guard.readSwitchCase child raw path) (Guard.readSwitchCase child' raw path) := by
  apply (CutShort.refl _).bind_of
  intro entries hentries
  rw [asEntries_ok hentries] at hcase hotherwise
  apply (readCase_cutShort hcase path).bind
  intro case
  apply (readBranch_cutShort hotherwise _).bind
  intro otherwise
  exact .refl _

theorem readCases_cutShort {raw : Entries} (h : CutShortOn stops child child' (Guard.inner raw))
    (path : Path) :
    CutShort stops (Guard.readCases child raw path) (Guard.readCases child' raw path) := by
  unfold Guard.readCases
  cases hswitch : raw.get? "switch" with
  | none =>
    have hcase : CutShortOn stops child child' (Case.inner raw) := by
      apply h.of_mem
      intro v hv
      exact List.mem_append_left _ (by simpa [Guard.rawCases, hswitch] using hv)
    apply (readCase_cutShort hcase path).bind
    intro case
    exact .refl _
  | some switch =>
    apply (CutShort.refl _).bind_of
    intro items hitems
    replace hitems := asItems_ok hitems
    have hread : ∀ item ∈ items, ∀ path, CutShort stops (Guard.readSwitchCase child item path)
        (Guard.readSwitchCase child' item path) := by
      intro item hitem
      apply readSwitchCase_cutShort
      · apply h.of_mem
        intro v hv
        refine List.mem_append_left _ (List.mem_flatMap.2 ⟨item.entriesOf, ?_, hv⟩)
        simp only [Guard.rawCases, hswitch, hitems, Option.getD_some]
        exact List.mem_map_of_mem hitem
      · apply h.of_mem
        intro v hv
        refine List.mem_append_right _ (List.reduceOption_mem_iff.2 (List.mem_append_left _ ?_))
        simp only [Guard.switchFallbacks, hswitch, hitems, Option.getD_some]
        exact List.mem_map.2 ⟨item, hitem, Option.mem_toList.1 hv⟩
    apply (readEach_cutShort hread _).bind
    intro cases
    exact .refl _

theorem readGuard_cutShort {raw : Value}
    (h : CutShortOn stops child child' (Guard.inner raw.entriesOf)) (path : Path) :
    CutShort stops (Guard.read child raw path) (Guard.read child' raw path) := by
  apply (CutShort.refl _).bind_of
  intro entries hentries
  rw [asEntries_ok hentries] at h
  apply (CutShort.refl _).bind
  intro reference
  apply (readCases_cutShort h path).bind
  intro cases
  have hown : CutShortOn stops child child' (entries.given? "otherwise").toList := by
    apply h.of_mem
    intro v hv
    refine List.mem_append_right _ (List.reduceOption_mem_iff.2 (List.mem_append_right _ ?_))
    exact List.mem_singleton.2 (Option.mem_toList.1 hv).symm
  apply (readBranch_cutShort hown _).bind
  intro own
  exact .refl _

namespace Node

theorem readMatch_cutShort {raw : Value}
    (hplain : CutShortOn stops child child' (plainMember? raw).toList)
    (hguard : plainMember? raw = none → ∀ path,
      CutShort stops (Guard.read child raw path) (Guard.read child' raw path)) (path : Path) :
    CutShort stops (readMatch child raw path) (readMatch child' raw path) := by
  unfold readMatch
  split
  · rename_i entries
    have hentries : (Value.map entries).entriesOf = entries := rfl
    split
    · rename_i schema hschema
      have hmem : schema ∈ (plainMember? (.map entries)).toList := by
        simp [plainMember?, hentries, hschema]
      apply (hplain schema hmem _).bind
      intro node
      exact .refl _
    · rename_i hschema
      split
      · rename_i htype
        have hmem : Value.map entries ∈ (plainMember? (.map entries)).toList := by
          simp [plainMember?, hentries, hschema, htype]
        apply (hplain _ hmem _).bind
        intro node
        exact .refl _
      · rename_i htype
        have hnone : plainMember? (.map entries) = none := by
          simp [plainMember?, hentries, hschema, htype]
        apply (hguard hnone path).bind
        intro guard
        exact .refl _
  · exact .refl _

/-- A part that is there is cut short with its reader. -/
theorem readPart_cutShort {α : Type} {reader reader' : Value → Path → Checked α} {absent : α}
    {entries : Entries} {key : String}
    (h : ∀ raw, entries.get? key = some raw → ∀ path,
      CutShort stops (reader raw path) (reader' raw path)) (path : Path) :
    CutShort stops (readPart reader absent entries key path)
      (readPart reader' absent entries key path) := by
  unfold readPart
  cases hget : entries.get? key with
  | none => exact .refl _
  | some raw => exact h raw hget _

theorem readKeys_cutShort {raw : Value}
    (h : CutShortOn stops child child' (raw.entriesOf.map Prod.snd)) (path : Path) :
    CutShort stops (readKeys child raw path) (readKeys child' raw path) := by
  unfold readKeys
  split
  · exact .refl _
  · apply (CutShort.refl _).bind_of
    intro entries hentries
    rw [asEntries_ok hentries] at h
    apply CutShort.bind
    · apply CutShort.mapM
      rintro ⟨key, value⟩ hentry
      cases key with
      | str name =>
        apply (h value (List.mem_map_of_mem hentry) _).bind
        intro node
        exact .refl _
      | _ => exact .refl _
    · intro keys
      exact .refl _

theorem readMembers_cutShort {entries : Entries} {kind : Kind}
    (h : ∀ member ∈ entries.itemsAt "matches", ∀ path,
      CutShort stops (readMatch child member path) (readMatch child' member path)) (path : Path) :
    CutShort stops (readMembers child entries kind path)
      (readMembers child' entries kind path) := by
  unfold readMembers
  cases hget : entries.get? "matches" with
  | none => exact .refl _
  | some raw =>
    apply (CutShort.refl _).bind_of
    intro items hitems
    have hmembers : ∀ item ∈ items, ∀ path,
        CutShort stops (readMatch child item path) (readMatch child' item path) := by
      intro item hitem
      apply h item
      rwa [Entries.itemsAt, hget, Option.bind_some, asItems_ok hitems]
    apply (readEach_cutShort hmembers _).bind
    intro members
    exact .refl _

end Node

/-! ## Levels -/

namespace CutShortOn

open Node

variable {raw : Value} (h : CutShortOn stops child child' raw.inner)
include h

theorem content : CutShortOn stops child child' (rawContent raw.entriesOf) :=
  h.of_mem fun _ hv => List.mem_append_left _ hv

theorem guards : ∀ guard ∈ rawGuards raw.entriesOf, ∀ path,
    CutShort stops (Guard.read child guard path) (Guard.read child' guard path) := by
  intro guard hguard
  apply readGuard_cutShort
  apply h.of_mem
  intro v hv
  exact List.mem_append_right _ (List.mem_flatMap.2 ⟨guard, hguard, hv⟩)

theorem keys (path : Path) :
    CutShort stops (readPart (readKeys child) none raw.entriesOf "keys" path)
      (readPart (readKeys child') none raw.entriesOf "keys" path) := by
  apply readPart_cutShort
  intro keys hget
  apply readKeys_cutShort
  apply h.content.of_mem
  intro v hv
  refine List.mem_append_left _ (List.mem_append_left _ ?_)
  rwa [rawKeys, hget]

theorem items (path : Path) :
    CutShort stops (readPart (readItems child) [] raw.entriesOf "items" path)
      (readPart (readItems child') [] raw.entriesOf "items" path) := by
  apply readPart_cutShort
  intro items hget
  apply readSequence_cutShort
  intro values hvalues
  apply h.content.of_mem
  intro v hv
  refine List.mem_append_left _ (List.mem_append_right _ ?_)
  rwa [Entries.itemsAt, hget, Option.bind_some, hvalues]

theorem members (kind : Kind) (path : Path) :
    CutShort stops (readMembers child raw.entriesOf kind path)
      (readMembers child' raw.entriesOf kind path) := by
  apply readMembers_cutShort
  intro member hmember
  apply readMatch_cutShort
  · apply h.content.of_mem
    intro v hv
    refine List.mem_append_right _ ?_
    exact List.mem_filterMap.2 ⟨member, hmember, Option.mem_toList.1 hv⟩
  · intro hnone
    apply h.guards
    exact List.mem_append_left _ (List.mem_filter.2 ⟨hmember, by simp [hnone]⟩)

theorem whens (path : Path) :
    CutShort stops (readPart (readWhens child) [] raw.entriesOf "whens" path)
      (readPart (readWhens child') [] raw.entriesOf "whens" path) := by
  apply readPart_cutShort
  intro whens hget
  apply readSequence_cutShort
  intro values hvalues guard hguard
  apply h.guards
  refine List.mem_append_right _ ?_
  rwa [Entries.itemsAt, hget, Option.bind_some, hvalues]

end CutShortOn

namespace Node

/-- A level is cut short if the reader of the level below is, on the descriptions inside it. -/
theorem readLevel_cutShort {raw : Value} (h : CutShortOn stops child child' raw.inner) (path : Path) :
    CutShort stops (readLevel child raw path) (readLevel child' raw path) := by
  rw [readLevel_head, readLevel_head]
  apply (CutShort.refl _).bind_of
  intro entries hentries
  obtain rfl : raw.entriesOf = entries := by
    unfold asDescription at hentries
    split at hentries <;> cases hentries
    rfl
  apply (CutShort.refl _).bind
  intro head
  apply (h.keys path).bind
  intro keys
  apply (h.items path).bind
  intro items
  apply (h.members _ path).bind
  intro members
  apply (h.whens path).bind
  intro whens
  exact .refl _

end Node

/-! ## What a level has read -/

/-- The descriptions in a case were read as its condition and its branch. -/
theorem Case.Origin.part_of_inner {raw : Entries} {case : Case Node} (h : case.Origin child raw) :
    ∀ v ∈ inner raw, ∃ m, (m = case.condition ∨ case.branch = some m) ∧ Gives child v m := by
  intro v hv
  rcases List.mem_append.1 hv with hv | hv
  · have htest := Option.mem_toList.1 hv
    rcases h.condition with ⟨w, hw, hgives⟩ | ⟨hnone, -⟩
    · rw [hw] at htest
      cases htest
      exact ⟨case.condition, .inl rfl, hgives⟩
    · rw [hnone] at htest
      cases htest
  · obtain ⟨m, hm, hgives⟩ := forall₂_mem_left (forall₂_toList h.branch) v hv
    exact ⟨m, .inr (Option.mem_toList.1 hm), hgives⟩

theorem Guard.Origin.part_of_kept {raw : Entries} {g : Guard Node} (h : g.Origin child raw) :
    ∀ v ∈ keptInner raw, ∃ m, (m ∈ g.branches ∨ m ∈ g.conditions) ∧ Gives child v m := by
  intro v hv
  rcases List.mem_append.1 hv with hv | hv
  · obtain ⟨entries, hentries, hv⟩ := List.mem_flatMap.1 hv
    obtain ⟨case, hcase, horigin⟩ := forall₂_mem_left h.cases entries hentries
    obtain ⟨m, hm, hgives⟩ := horigin.part_of_inner v hv
    refine ⟨m, ?_, hgives⟩
    rcases hm with rfl | hm
    · exact .inr (List.mem_map_of_mem hcase)
    · exact .inl (List.mem_append_left _ (List.mem_filterMap.2 ⟨case, hcase, hm⟩))
  · obtain ⟨m, hm, hgives⟩ := forall₂_mem_left (forall₂_toList h.otherwise) v hv
    exact ⟨m, .inl (List.mem_append_right _ hm), hgives⟩

namespace Node.Origin

variable {entries : Entries} {n : Node} (h : n.Origin child entries)
include h

/-- The descriptions that nodes are kept of were read as parts of the node. -/
theorem part_of_kept : ∀ v ∈ (Value.map entries).keptInner,
    ∃ m, (m ∈ n.content ∨ m ∈ n.branches ∨ m ∈ n.conditions) ∧ Gives child v m := by
  intro v hv
  rcases List.mem_append.1 hv with hv | hv
  · obtain ⟨m, hm, hgives⟩ := forall₂_mem_left h.content v hv
    exact ⟨m, .inl hm, hgives⟩
  · obtain ⟨raw, hraw, hv⟩ := List.mem_flatMap.1 hv
    obtain ⟨g, hg, horigin⟩ := forall₂_mem_left h.guards raw hraw
    obtain ⟨m, hm, hgives⟩ := horigin.part_of_kept v hv
    refine ⟨m, .inr ?_, hgives⟩
    exact hm.imp (fun hm => List.mem_flatMap.2 ⟨g, hg, hm⟩) fun hm => List.mem_flatMap.2 ⟨g, hg, hm⟩

/-- All descriptions inside were read, also those whose place another one takes. -/
theorem inner_gives : ∀ v ∈ (Value.map entries).inner, ∃ m, Gives child v m := by
  intro v hv
  rcases Value.mem_inner.1 hv with hv | hv
  · obtain ⟨m, -, hgives⟩ := h.part_of_kept v hv
    exact ⟨m, hgives⟩
  · obtain ⟨raw, hraw, hv⟩ := List.mem_flatMap.1 hv
    obtain ⟨g, -, horigin⟩ := forall₂_mem_left h.guards raw hraw
    exact horigin.fallbacks v ((List.dropLast_sublist _).subset hv)

/-- A node with conditions has branches beside them. -/
theorem branches_ne_nil {m : Node} (hm : m ∈ n.conditions) : n.branches ≠ [] := by
  obtain ⟨g, hg, -⟩ := List.mem_flatMap.1 hm
  obtain ⟨raw, -, horigin⟩ := forall₂_mem_right h.guards g hg
  obtain ⟨b, hb⟩ := List.exists_mem_of_ne_nil _ horigin.branch
  exact List.ne_nil_of_mem (List.mem_flatMap.2 ⟨g, hg, hb⟩)

end Node.Origin

end Schemata
