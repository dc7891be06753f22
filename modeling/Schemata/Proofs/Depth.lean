import Schemata.Proofs.Reached
import Schemata.Proofs.Reading
/-!
The limit on the depth of a description, and the limit on the depth of what is written.

Reading and writing count levels differently. A condition is read one level below the node it belongs
to, but it is written beside that node; a merged branch is written one level above the one it was read
at. Writing is never the deeper of the two: `Within` is what reading guarantees, and it is handed down
from every node to the nodes below it.

Component: the reader and the writer of nodes, and the limit they share. Main results:
- `Node.read_within` — a description that is read lies within the levels it was read with;
- `within_of_mem_children` — the nodes below lie within one level less;
- `write_ne_tooDeep` — what can be read within a limit can be written within it.
-/

namespace Schemata

namespace Node

/-- A node that has parts on a limited number of levels. Conditions may lie as deep as the node they
belong to. -/
inductive Within : Nat → Node → Prop where
  | intro {l : Nat} {n : Node} (content : ∀ m ∈ n.content, Within l m)
    (branches : ∀ m ∈ n.branches, Within l m) (conditions : ∀ m ∈ n.conditions, Within (l + 1) m) :
    Within (l + 1) n

namespace Within

theorem mono {l l' : Nat} {n : Node} (h : Within l n) (hl : l ≤ l') : Within l' n := by
  induction h generalizing l' with
  | intro content branches conditions ihcontent ihbranches ihconditions =>
    cases l' with
    | zero => omega
    | succ l' =>
      exact .intro (fun m hm => ihcontent m hm (by omega)) (fun m hm => ihbranches m hm (by omega))
        fun m hm => ihconditions m hm hl

theorem of_compares {n : Node} (h : Case.Compares n) (l : Nat) : Within (l + 1) n := by
  obtain ⟨hcontent, hbranches, hconditions⟩ := h.parts
  exact .intro (by simp [hcontent]) (by simp [hbranches]) (by simp [hconditions])

end Within

/-- A description that is read lies within the levels it was read with. -/
theorem read_within {limit : Int} {levels : Nat} {raw : Value} {path : Path} {n : Node}
    (h : read limit levels raw path = .ok n) : n.Within levels := by
  induction levels generalizing raw path n with
  | zero => cases h
  | succ levels ih =>
    obtain ⟨entries, -, hreads⟩ := readLevel_ok h
    have hchild : ∀ m, ReadBy (read limit levels) m → m.Within levels := by
      rintro m ⟨raw, path, hm⟩
      exact ih hm
    refine .intro (fun m hm => ?_) (fun m hm => ?_) fun m hm => ?_
    · exact hchild m (hreads.content_readBy m hm)
    · exact hchild m (hreads.branches_readBy m hm)
    · -- A condition that was read has a level to spare; one that compares has no parts at all.
      rcases hreads.conditions_readBy m hm with hm | hm
      · exact (hchild m hm).mono (Nat.le_succ levels)
      · exact .of_compares hm levels

end Node

namespace Writing

/-- The nodes below a node lie within one level less. -/
theorem within_of_mem_children {l : Nat} {n m : Node} (h : n.Within (l + 1)) (hm : m ∈ children n) :
    m.Within l := by
  cases h with
  | intro content _ _ =>
    cases below_of_mem_children hm with
    | content hm => exact content m hm
    | condition hk hm =>
      cases content _ hk with
      | intro _ _ conditions => exact conditions m hm
    | branch hk _ hm =>
      cases content _ hk with
      | intro _ branches _ => exact (branches m hm).mono (Nat.le_succ _)
    | base hk hb =>
      obtain ⟨hcontent, hbranches, hconditions⟩ := guardBase_content hb
      cases content _ hk with
      | intro content _ _ =>
        exact .intro (by rw [hcontent]; exact content) (by simp [hbranches]) (by simp [hconditions])
    | merged hk hb hbranch hmerge =>
      obtain ⟨hcontent, -, -⟩ := guardBase_content hb
      cases content _ hk with
      | intro content branches _ =>
        refine .intro (fun x hx => ?_) (by simp [Node.merge_branches hmerge])
          (by simp [Node.merge_conditions hmerge])
        rcases Node.merge_content hmerge hx with hx | hx
        · exact content x (hcontent ▸ hx)
        · -- The branch was read one level below its property, so its content has a level to spare.
          cases branches _ hbranch with
          | intro content _ _ => exact (content x hx).mono (Nat.le_succ _)

/-- A contract for steps that do not run out of levels. -/
def staysWithin : Contract where
  change := fun _ _ => True
  failure := fun failure => ∀ limit path, failure ≠ .rejected ⟨.tooDeep limit, path⟩
  refl := fun _ => trivial
  trans := fun _ _ => trivial
  note := fun _ _ => trivial
  refusal := by
    rintro cause path h limit path' ⟨⟩
    cases h

theorem staysWithin_allows (setting : Setting) (n : Node) : staysWithin.Allows setting n := by
  constructor
  · rintro target failure h limit path rfl
    obtain ⟨rule, -, path', h⟩ := allRuleCalls_error (applyRules_error h)
    obtain h | ⟨e, hrefusal, h⟩ | ⟨d, form, -, h, -⟩ := ruleCalls_error h
    · cases h
    · cases h
      cases hrefusal
    · cases h
  · rintro v - failure h limit path rfl
    unfold Value.toLiteral at h
    split at h <;> cases h
  · rintro - guard - - limit path ⟨⟩

theorem write_staysWithin (setting : Setting) {l : Nat} {n : Node} (h : n.Within l) :
    staysWithin.Holds (fun _ => True) (write setting l n) := by
  refine write_holds (I := fun l n => n.Within l) ?_ ?_ ?_ ?_ h
  · rintro n ⟨⟩
  · exact fun l n m h hm => within_of_mem_children h hm
  · exact fun l n _ _ _ => staysWithin_allows setting n
  · exact fun _ _ => trivial

/-- What can be read within a limit can be written within it. -/
theorem write_ne_tooDeep {limit : Nat} {raw : Value} {node : Node}
    (hread : Node.ofValue limit raw = .ok node) {setting : Setting}
    (hlimit : setting.options.maxDepth = limit) (progress : Progress) (shown : Int) (path : Path) :
    write setting setting.options.maxDepth node progress ≠
      .error (.rejected ⟨.tooDeep shown, path⟩) := by
  intro h
  rw [hlimit] at h
  exact (write_staysWithin setting (Node.read_within hread)).2 progress _ h shown path rfl

/-- A property with a conditional whose condition and branch lie at the limit. -/
theorem write_ne_tooDeep_conditional :
    ∃ node, Node.ofValue (3 : Nat) (.map [(.str "type", .str "object"), (.str "keys", .map
        [(.str "a", .map [(.str "type", .str "string"), (.str "whens", .list [.map
          [(.str "ref", .str "b"), (.str "is", .map [(.str "type", .str "number")]),
            (.str "then", .map [(.str "type", .str "string")])]])])])]) = .ok node ∧
      write ⟨{ maxDepth := 3 }, Rulebook.builtin⟩ 3 node {} ≠
        .error (.rejected ⟨.tooDeep 3, .root⟩) := by
  refine ⟨?node, ?hread, write_ne_tooDeep ?hread rfl {} 3 .root⟩
  case hread => rfl

end Writing

end Schemata
