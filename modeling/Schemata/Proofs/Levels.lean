import Schemata.Proofs.Depth
import Schemata.Proofs.InnerReading
import Schemata.Proofs.Switches
/-!
The limit on the number of levels.

The limit only cuts off: below it everything is as with any larger limit. What is counted are the
descriptions that are read. Nearly all of them leave a node behind, on the level that they lie on, so
that the depth of the nodes decides whether the limit is kept. The exception are branches for the case
that no test holds whose place a later one takes: they are read and checked, and may lie deeper than
everything that is kept.

Component: the limit on the depth, `Options.maxDepth`. Main results:
- `Node.read_cutShort` — with fewer levels, reading is cut short;
- `levels_le_iff` — which levels count: those of the nodes and those of the branches that are
  replaced;
- `compile_maxDepth` — the limit cuts off and does nothing else, with the exact threshold.
-/

namespace Schemata

/-! ## Levels -/

/-- Where the parts of a whole lie: the whole on level 1, and every part one level below what it is a
part of. -/
inductive OnLevel {α : Type} (part : α → α → Prop) (whole : α) : Nat → α → Prop where
  | whole : OnLevel part whole 1 whole
  | step {k : Nat} {a b : α} (h : OnLevel part whole k a) (hb : part a b) :
    OnLevel part whole (k + 1) b

namespace OnLevel

variable {α : Type} {part part' : α → α → Prop} {a b c : α} {i k : Nat}

theorem mono (hpart : ∀ a b, part a b → part' a b) (h : OnLevel part a k b) :
    OnLevel part' a k b := by
  induction h with
  | whole => exact .whole
  | step _ hb ih => exact .step ih (hpart _ _ hb)

theorem trans (h : OnLevel part a (k + 1) b) (h' : OnLevel part b i c) :
    OnLevel part a (k + i) c := by
  induction h' with
  | whole => exact h
  | step _ hc ih => exact .step ih hc

/-- What lies in a part lies one level deeper in the whole. -/
theorem of_part (hb : part a b) (h : OnLevel part b k c) : OnLevel part a (k + 1) c := by
  have hdeep := (OnLevel.step .whole hb).trans h
  rwa [Nat.add_comm] at hdeep

end OnLevel

namespace Value

def HasInner (v w : Value) : Prop := w ∈ v.inner

/-- One description is directly inside another one, and a node is kept of it. -/
def HasKept (v w : Value) : Prop := w ∈ v.keptInner

/-- A description lies on a level of a branch whose place another one takes; levels are counted from
the whole. -/
def OnReplacedLevel (raw : Value) (k : Nat) (w : Value) : Prop :=
  ∃ j v branch i, OnLevel HasKept raw j v ∧ branch ∈ v.replacedInner ∧
    OnLevel HasInner branch i w ∧ k = j + i

/-- Every description inside another one is in a part that is kept, or in a branch that is replaced. -/
theorem onLevel_inner_iff {raw v : Value} {k : Nat} :
    OnLevel HasInner raw k v ↔ OnLevel HasKept raw k v ∨ raw.OnReplacedLevel k v := by
  constructor
  · intro h
    induction h with
    | whole => exact .inl .whole
    | @step k v w _ hw ih =>
      rcases ih with hv | ⟨j, u, branch, i, hu, hbranch, hv, rfl⟩
      · rcases mem_inner.1 hw with hw | hw
        · exact .inl (.step hv hw)
        · exact .inr ⟨k, v, w, 1, hv, hw, .whole, rfl⟩
      · exact .inr ⟨j, u, branch, i + 1, hu, hbranch, .step hv hw, rfl⟩
  · have hkept : ∀ {k v}, OnLevel HasKept raw k v → OnLevel HasInner raw k v := by
      intro k v h
      exact h.mono fun _ _ hw => mem_inner.2 (.inl hw)
    rintro (h | ⟨j, u, branch, i, hu, hbranch, hv, rfl⟩)
    · exact hkept h
    · exact (OnLevel.step (hkept hu) (mem_inner.2 (.inr hbranch))).trans hv

end Value

namespace Node

/-- One node is a part of another one. Of the conditions, only some may count. -/
def HasPart (counts : Node → Prop) (n m : Node) : Prop :=
  m ∈ n.content ∨ m ∈ n.branches ∨ m ∈ n.conditions ∧ counts m

variable {counts : Node → Prop} {limit : Int} {levels : Nat} {raw : Value} {path : Path} {root : Node}

/-! ## Levels that are read -/

/-- What is read is read with one level or more. -/
theorem read_succ (h : read limit levels raw path = .ok root) : ∃ below, levels = below + 1 := by
  cases levels with
  | zero => cases h
  | succ levels => exact ⟨levels, rfl⟩

/-- All descriptions inside a description that is read are read, with the levels that are left. -/
theorem read_onLevel (h : read limit levels raw path = .ok root) {k : Nat} {v : Value}
    (hv : OnLevel Value.HasInner raw k v) :
    k ≤ levels ∧ ∃ m p, read limit (levels + 1 - k) v p = .ok m := by
  induction hv with
  | whole =>
    obtain ⟨below, hbelow⟩ := read_succ h
    exact ⟨by omega, root, path, h⟩
  | @step k v w _ hw ih =>
    obtain ⟨-, m, p, hm⟩ := ih
    obtain ⟨below, hbelow⟩ := read_succ hm
    rw [hbelow] at hm
    obtain ⟨entries, rfl, hreads⟩ := readLevel_ok hm
    obtain ⟨m', p', hm'⟩ := hreads.origin.inner_gives w hw
    have hpos := read_succ hm'
    have heq : levels + 1 - (k + 1) = below := by omega
    rw [heq]
    exact ⟨by omega, m', p', hm'⟩

/-- With fewer levels, reading is cut short; it is not stopped unless a description lies below the last
level. -/
theorem read_cutShort {stops : CompileError → Prop} {limit' : Int} {levels' : Nat}
    (hle : levels ≤ levels') (hstops : ∀ v p, OnLevel Value.HasInner raw (levels + 1) v →
      stops ⟨.tooDeep limit, p⟩) :
    Outcome.CutShort stops (read limit levels raw path) (read limit' levels' raw path) := by
  induction levels generalizing levels' raw path with
  | zero => exact .stopped (hstops raw path .whole)
  | succ levels ih =>
    cases levels' with
    | zero => omega
    | succ levels' =>
      apply readLevel_cutShort
      intro v hv p
      apply ih (by omega)
      intro w p' hw
      exact hstops w p' (.of_part hv hw)

/-! ## Levels of nodes -/

/-- A part was read from a description that is kept, or it compares with values and lies beside such a
part. -/
theorem Origin.kept_of_part {child : ChildReader} {entries : Entries} {n m : Node}
    (h : n.Origin child entries) (hm : HasPart counts n m) :
    (∃ v, (Value.map entries).HasKept v ∧ Gives child v m) ∨
      Case.Compares m ∧ ∃ v, (Value.map entries).HasKept v := by
  rcases hm with hm | hm | ⟨hm, -⟩
  · obtain ⟨v, hv, hgives⟩ := forall₂_mem_right h.content m hm
    exact .inl ⟨v, List.mem_append_left _ hv, hgives⟩
  · exact .inl (h.branches m hm)
  · rcases h.conditions m hm with hcompares | hread
    · obtain ⟨b, hb⟩ := List.exists_mem_of_ne_nil _ (h.branches_ne_nil hm)
      obtain ⟨v, hv, -⟩ := h.branches b hb
      exact .inr ⟨hcompares, v, hv⟩
    · exact .inl hread

theorem not_hasPart_of_compares {n m : Node} (h : Case.Compares n) : ¬ HasPart counts n m := by
  obtain ⟨hcontent, hbranches, hconditions⟩ := h.parts
  simp [HasPart, hcontent, hbranches, hconditions]

/-- On the level of every node there is a description that is kept. -/
theorem kept_of_part (h : read limit levels raw path = .ok root) {k : Nat} {m : Node}
    (hm : OnLevel (HasPart counts) root k m) :
    (∃ v l p, OnLevel Value.HasKept raw k v ∧ read limit l v p = .ok m) ∨
      Case.Compares m ∧ ∃ v, OnLevel Value.HasKept raw k v := by
  induction hm with
  | whole => exact .inl ⟨raw, levels, path, .whole, h⟩
  | @step k n m _ hpart ih =>
    rcases ih with ⟨v, l, p, hv, hn⟩ | ⟨hcompares, -⟩
    · obtain ⟨l, rfl⟩ := read_succ hn
      obtain ⟨entries, rfl, hreads⟩ := readLevel_ok hn
      rcases hreads.origin.kept_of_part hpart with ⟨w, hw, p', hp'⟩ | ⟨hcompares, w, hw⟩
      · exact .inl ⟨w, l, p', .step hv hw, hp'⟩
      · exact .inr ⟨hcompares, w, .step hv hw⟩
    · exact absurd hpart (not_hasPart_of_compares hcompares)

/-- A description that is kept was read as a part, or as a condition that does not count and has a
branch beside it. -/
theorem Origin.counted_of_kept (hcounts : ∀ m, ¬ Case.Compares m → counts m) {child : ChildReader}
    {entries : Entries} {n : Node} {v : Value} (h : n.Origin child entries)
    (hv : (Value.map entries).HasKept v) :
    (∃ m, HasPart counts n m ∧ Gives child v m) ∨
      (∃ m, Case.Compares m ∧ Gives child v m) ∧ ∃ m, HasPart counts n m := by
  obtain ⟨m, hm, hgives⟩ := h.part_of_kept v hv
  by_cases hcompares : Case.Compares m
  · rcases hm with hm | hm | hm
    · exact .inl ⟨m, .inl hm, hgives⟩
    · exact .inl ⟨m, .inr (.inl hm), hgives⟩
    · obtain ⟨b, hb⟩ := List.exists_mem_of_ne_nil _ (h.branches_ne_nil hm)
      exact .inr ⟨⟨m, hcompares, hgives⟩, b, .inr (.inl hb)⟩
  · have hcounted := hcounts m hcompares
    exact .inl ⟨m, hm.imp_right (Or.imp_right fun hm => ⟨hm, hcounted⟩), hgives⟩

/-- A description that is read like a condition that compares with values has nothing inside. -/
theorem not_hasKept_of_compares (h : read limit levels raw path = .ok root)
    (hcompares : Case.Compares root) (v : Value) : ¬ raw.HasKept v := by
  intro hv
  obtain ⟨levels, rfl⟩ := read_succ h
  obtain ⟨entries, rfl, hreads⟩ := readLevel_ok h
  obtain ⟨m, hm, -⟩ := hreads.origin.part_of_kept v hv
  obtain ⟨hcontent, hbranches, hconditions⟩ := hcompares.parts
  simp [hcontent, hbranches, hconditions] at hm

/-- On the level of every description that is kept there is a node. -/
theorem part_of_kept (hcounts : ∀ m, ¬ Case.Compares m → counts m)
    (h : read limit levels raw path = .ok root) {k : Nat} {v : Value}
    (hv : OnLevel Value.HasKept raw k v) :
    (∃ m l p, OnLevel (HasPart counts) root k m ∧ read limit l v p = .ok m) ∨
      (∀ w, ¬ v.HasKept w) ∧ ∃ m, OnLevel (HasPart counts) root k m := by
  induction hv with
  | whole => exact .inl ⟨root, levels, path, .whole, h⟩
  | @step k v w _ hw ih =>
    rcases ih with ⟨n, l, p, hn, hread⟩ | ⟨hnone, -⟩
    · obtain ⟨l, rfl⟩ := read_succ hread
      obtain ⟨entries, rfl, hreads⟩ := readLevel_ok hread
      rcases hreads.origin.counted_of_kept hcounts hw with
        ⟨m, hm, p', hp'⟩ | ⟨⟨m, hcompares, p', hp'⟩, b, hb⟩
      · exact .inl ⟨m, l, p', .step hn hm, hp'⟩
      · exact .inr ⟨not_hasKept_of_compares hp' hcompares, b, .step hn hb⟩
    · exact absurd hw (hnone w)

/-- The levels of the descriptions are those of the nodes and those of the branches that are
replaced. -/
theorem levels_le_iff (hcounts : ∀ m, ¬ Case.Compares m → counts m)
    (h : read limit levels raw path = .ok root) (bound : Nat) :
    (∀ k v, OnLevel Value.HasInner raw k v → k ≤ bound) ↔
      (∀ k m, OnLevel (HasPart counts) root k m → k ≤ bound) ∧
        ∀ k v, raw.OnReplacedLevel k v → k ≤ bound := by
  constructor
  · intro hbound
    refine ⟨fun k m hm => ?_, fun k v hv => hbound k v (Value.onLevel_inner_iff.2 (.inr hv))⟩
    obtain ⟨v, hv⟩ : ∃ v, OnLevel Value.HasKept raw k v := by
      rcases kept_of_part h hm with ⟨v, -, -, hv, -⟩ | ⟨-, hv⟩
      · exact ⟨v, hv⟩
      · exact hv
    exact hbound k v (Value.onLevel_inner_iff.2 (.inl hv))
  · rintro ⟨hnodes, hreplaced⟩ k v hv
    rcases Value.onLevel_inner_iff.1 hv with hv | hv
    · obtain ⟨m, hm⟩ : ∃ m, OnLevel (HasPart counts) root k m := by
        rcases part_of_kept hcounts h hv with ⟨m, -, -, hm, -⟩ | ⟨-, hm⟩
        · exact ⟨m, hm⟩
        · exact hm
      exact hnodes k m hm
    · exact hreplaced k v hv

end Node

/-! ## Compilations with two limits -/

namespace Compiler

variable {rules : Rulebook} {o : Options} {raw : Value} {limit wider : Nat}

/-- The run ended because of the limit. -/
def Exceeds (limit : Nat) (failure : Failure) : Prop :=
  ∃ path, failure = .rejected ⟨.tooDeep limit, path⟩

/-- A smaller limit only cuts off. -/
theorem compile_maxDepth_cutShort (hle : limit ≤ wider) :
    Outcome.CutShort (Exceeds limit) (compile ⟨{ o with maxDepth := limit }, rules⟩ (.tree raw))
      (compile ⟨{ o with maxDepth := wider }, rules⟩ (.tree raw)) := by
  have hread : Outcome.CutShort (fun e => ∃ path, e = ⟨.tooDeep limit, path⟩)
      (Node.ofValue limit raw) (Node.ofValue wider raw) := by
    apply Node.read_cutShort
    · simpa using hle
    · intro v path _
      exact ⟨path, rfl⟩
  apply Outcome.CutShort.bind
  · rcases hread with heq | ⟨e, ⟨path, rfl⟩, herror⟩
    · exact .inl (congrArg Checked.toWritten heq)
    · refine .inr ⟨.rejected ⟨.tooDeep limit, path⟩, ⟨path, rfl⟩, ?_⟩
      exact congrArg Checked.toWritten herror
  · intro node
    apply compileNode_cutShort
    exact ⟨⟨rfl, rfl, rfl, .inl rfl, .inl rfl⟩, rfl, rfl, .inr ⟨hle, fun path => ⟨path, rfl⟩⟩⟩

/-- With a smaller limit, a description that compiles still compiles exactly if no description in it
lies below the last level. -/
theorem compile_maxDepth_ok_iff {result : Result} (hle : limit ≤ wider)
    (h : compile ⟨{ o with maxDepth := wider }, rules⟩ (.tree raw) = .ok result) :
    (∃ result', compile ⟨{ o with maxDepth := limit }, rules⟩ (.tree raw) = .ok result') ↔
      ∀ k v, OnLevel Value.HasInner raw k v → k ≤ limit := by
  constructor
  · rintro ⟨result', h'⟩ k v hv
    obtain ⟨root, hroot, -⟩ := Outcome.bind_ok.1 h'
    have hread : Node.read limit limit raw .root = .ok root := Outcome.toWritten_ok.1 hroot
    exact (Node.read_onLevel hread hv).1
  · intro hlevels
    -- Nothing stops the reader, so it reads the same node.
    obtain ⟨root, hroot, -⟩ := Outcome.bind_ok.1 h
    replace hroot : Node.ofValue wider raw = .ok root := Outcome.toWritten_ok.1 hroot
    have hread : Node.ofValue limit raw = .ok root := by
      have hcut : Outcome.CutShort (fun _ => False) (Node.ofValue limit raw)
          (Node.ofValue wider raw) := by
        apply Node.read_cutShort
        · simpa using hle
        · intro v path hv
          have hbound : limit + 1 ≤ limit := hlevels _ v hv
          omega
      rcases hcut with heq | ⟨e, he, -⟩
      · rw [heq, hroot]
      · cases he
    -- What was read within the limit is written within it.
    rcases compile_maxDepth_cutShort hle with heq | ⟨failure, ⟨path, rfl⟩, herror⟩
    · exact ⟨result, heq.trans h⟩
    · rw [compile_of_read hread, compileNode_error] at herror
      have hwithin := Writing.write_staysWithin ⟨{ o with maxDepth := limit }, rules⟩
        (Node.read_within hread)
      exact absurd rfl (hwithin.2 {} _ herror limit path)

/-- A limit cuts off and does nothing else: with a smaller limit the outcome is the same, or the limit
is reported. What compiles with the larger limit compiles with the smaller one exactly if neither a node
of the tree nor a description in a replaced branch lies below the last level. Conditions that compare
with values may count as nodes or not. -/
theorem compile_maxDepth (rules : Rulebook) (o : Options) (raw : Value) {counts : Node → Prop}
    (hcounts : ∀ m, ¬ Case.Compares m → counts m) {limit wider : Nat} (hle : limit ≤ wider) :
    let run (limit : Nat) : Written Result := compile ⟨{ o with maxDepth := limit }, rules⟩ (.tree raw)
    (run limit = run wider ∨ ∃ path, run limit = .error (.rejected ⟨.tooDeep limit, path⟩)) ∧
      ∀ root result, Node.ofValue wider raw = .ok root → run wider = .ok result →
        ((∃ result', run limit = .ok result') ↔
          (∀ k m, OnLevel (Node.HasPart counts) root k m → k ≤ limit) ∧
            ∀ k v, raw.OnReplacedLevel k v → k ≤ limit) := by
  refine ⟨?_, fun root result hroot h => ?_⟩
  · rcases compile_maxDepth_cutShort hle with heq | ⟨failure, ⟨path, rfl⟩, herror⟩
    · exact .inl heq
    · exact .inr ⟨path, herror⟩
  · rw [← Node.levels_le_iff hcounts hroot limit]
    exact compile_maxDepth_ok_iff hle h

/-- A property whose condition has a property of its own, on the last of four levels. -/
theorem compile_maxDepth_condition :
    let description : Value :=
      .map [(.str "type", .str "object"), (.str "keys", .map
        [(.str "a", .map [(.str "type", .str "string"), (.str "whens", .list [.map
          [(.str "ref", .str "b"), (.str "is", .map [(.str "type", .str "object"),
              (.str "keys", .map [(.str "c", .map [(.str "type", .str "number")])])]),
            (.str "then", .map [(.str "type", .str "string")])]])])])]
    let run (limit : Nat) : Written Result :=
      compile ⟨{ maxDepth := limit }, Rulebook.builtin⟩ (.tree description)
    3 ≤ 4 ∧
      (run 3 = run 4 ∨ ∃ path, run 3 = .error (.rejected ⟨.tooDeep (3 : Nat), path⟩)) ∧
      ∃ root result, Node.ofValue (4 : Nat) description = .ok root ∧ run 4 = .ok result ∧
        ((∃ result', run 3 = .ok result') ↔
          (∀ k m, OnLevel (Node.HasPart fun m => ¬ Case.Compares m) root k m → k ≤ 3) ∧
            ∀ k v, description.OnReplacedLevel k v → k ≤ 3) := by
  refine ⟨by decide, (compile_maxDepth _ {} _ (fun _ hm => hm) (by decide)).1, ?root, ?result, ?hroot,
    ?hrun, (compile_maxDepth _ {} _ (fun _ hm => hm) (by decide)).2 ?root ?result ?hroot ?hrun⟩
  case hroot => rfl
  case hrun => rfl

/-- A branch that another one replaces can be too deep although all nodes of the tree are not. -/
theorem compile_replaced_tooDeep :
    let description (replaced : Entries) : Value :=
      .map [(.str "type", .str "object"), (.str "keys", .map
        [(.str "a", .map [(.str "type", .str "string"), (.str "whens", .list [.map
          [(.str "ref", .str "b"), (.str "switch", .list [.map ([(.str "is", .int 1),
              (.str "then", .map [(.str "type", .str "string")])] ++ replaced)]),
            (.str "otherwise", .map [(.str "type", .str "string")])]])])])]
    let deep := description [(.str "otherwise", .map [(.str "type", .str "array"),
      (.str "items", .list [.map [(.str "type", .str "string")]])])]
    ∃ root result path, Node.ofValue (4 : Nat) deep = .ok root ∧
      compile ⟨{ maxDepth := 4 }, Rulebook.builtin⟩ (.tree deep) = .ok result ∧
      (∀ k m, OnLevel (Node.HasPart fun _ => True) root k m → k ≤ 3) ∧
      compile ⟨{ maxDepth := 3 }, Rulebook.builtin⟩ (.tree deep) =
        .error (.rejected ⟨.tooDeep 3, path⟩) := by
  intro description deep
  refine ⟨?root, ?result, ?path, ?hroot, ?hrun, ?hlevels, ?herror⟩
  case hroot => rfl
  case hrun => rfl
  case herror => rfl
  case hlevels =>
    -- The same node is read from the description without the branch, which has three levels.
    have hread : Node.ofValue (3 : Nat) (description []) = .ok _ := rfl
    apply ((Node.levels_le_iff (fun _ _ => trivial) hread 3).1 ?_).1
    intro k v hv
    exact (Node.read_onLevel hread hv).1

end Compiler

end Schemata
