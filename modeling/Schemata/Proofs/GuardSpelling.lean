import Schemata.Proofs.SteadyReading
/-!
Conditionals that are spelled differently.

Two spellings of a test, of a branch, of a case or of a whole conditional are read alike if what they
hold is. The test may stand under either of its two keys, and a conditional may be written as a switch
with one case. The reader of descriptions is any reader whose outcomes without paths do not depend on
the path.

Component: the reader of conditionals, `Guard.read`. Main results:
- `Case.sameTest_of_keys` — either key of a test may hold another spelling;
- `Guard.sameArms_of_oneCase` — a conditional means the same as a switch with one case.
-/

namespace Schemata

open Checked

/-! ## Branches and tests -/

/-- Two values are read as nodes that are the same without their paths. -/
def NodeLike (child : ChildReader) (v v' : Value) : Prop := ∀ path path',
  (child v path).withoutPaths Node.withoutPaths = (child v' path').withoutPaths Node.withoutPaths

abbrev eraseBranch : Option Node → Option Node := Option.map Node.withoutPaths

def BranchLike (child : ChildReader) (v v' : Value) : Prop := ∀ path path',
  (Case.readBranch child v path).withoutPaths eraseBranch =
    (Case.readBranch child v' path').withoutPaths eraseBranch

section Conditionals
variable {child : ChildReader}

theorem branchLike_of_nodeLike {v v' : Value} (hnull : v.isNull = v'.isNull)
    (h : NodeLike child v v') : BranchLike child v v' := by
  intro path path'
  have hread : ∀ v : Value, Case.readBranch child v path = if v.isNull then .ok none else do
      let node ← child v path
      return some node := by
    intro v
    cases v <;> rfl
  have hread' : ∀ v : Value, Case.readBranch child v path' = if v.isNull then .ok none else do
      let node ← child v path'
      return some node := by
    intro v
    cases v <;> rfl
  rw [hread, hread', hnull]
  split
  · rfl
  · exact withoutPaths_bind (h path path') fun _ _ hnode => withoutPaths_ok (congrArg some hnode)

def Value.isTrue : Value → Bool
  | .bool b => b
  | _ => false

def TestLike (child : ChildReader) (v v' : Value) : Prop :=
  v.isTrue = v'.isTrue ∧ ∀ path path',
    (Case.readCondition child (some v) path).withoutPaths Node.withoutPaths =
      (Case.readCondition child (some v') path').withoutPaths Node.withoutPaths

theorem readCondition_self (hsteady : ∀ v, NodeLike child v v) (raw : Option Value)
    (path path' : Path) : (Case.readCondition child raw path).withoutPaths Node.withoutPaths =
      (Case.readCondition child raw path').withoutPaths Node.withoutPaths := by
  unfold Case.readCondition
  split
  · rfl
  · split
    · exact hsteady _ path path'
    · split
      · exact withoutPaths_bind_id (checkLiterals_steady _ _ _ _ _ _) fun _ => rfl
      · exact withoutPaths_bind_id (checkLiteral_steady _ _ _ _) fun _ => rfl

theorem testLike_self (hsteady : ∀ v, NodeLike child v v) (v : Value) : TestLike child v v :=
  ⟨rfl, readCondition_self hsteady (some v)⟩

theorem optionRel_self {R : Value → Value → Prop} (hself : ∀ v, R v v) (raw : Option Value) :
    Option.Rel R raw raw := by
  cases raw with
  | none => exact .none
  | some v => exact .some (hself v)

theorem optionRel_mono {R S : Value → Value → Prop} {raw raw' : Option Value}
    (h : Option.Rel R raw raw') (hRS : ∀ v v', R v v' → S v v') : Option.Rel S raw raw' := by
  cases h with
  | none => exact .none
  | some h => exact .some (hRS _ _ h)

theorem testLike_of_nodeLike {v v' : Value} (hv : Case.isDescription v = true)
    (hv' : Case.isDescription v' = true) (h : NodeLike child v v') : TestLike child v v' := by
  have hnotTrue : ∀ v : Value, Case.isDescription v = true → v.isTrue = false := by
    intro v hv
    cases v with
    | bool b => cases hv
    | _ => rfl
  refine ⟨(hnotTrue v hv).trans (hnotTrue v' hv').symm, fun path path' => ?_⟩
  simp only [Case.readCondition, hv, hv', if_true]
  exact h path path'

namespace Case

theorem readBranch_null (path : Path) : readBranch child .null path = .ok none := rfl

/-- The test of a case, and whether it is negated. -/
def readTest (child : ChildReader) (raw : Entries) (path : Path) : Checked (Bool × Node) := do
  let (negated, key) ← readTestKey raw path
  let condition ← readCondition child (raw.get? key) (path.key key)
  return (negated, condition)

theorem read_eq (raw : Entries) (path : Path) : read child raw path = (do
    let test ← readTest child raw path
    let branch ← readBranch child (raw.field "then") (path.key "then")
    return { condition := test.2, negated := test.1, branch }) := by
  simp only [read, readTest, bind_assoc, pure_bind]

/-- The test under one of the keys. -/
def readSide (child : ChildReader) (negated : Bool) (raw : Value) (path : Path) :
    Checked (Bool × Node) := do
  let condition ← readCondition child (some raw) path
  return (negated, condition)

theorem readTest_eq (raw : Entries) (path : Path) : readTest child raw path =
    match raw.get? "is", raw.get? "not" with
    | none, none => .ok (false, presentCondition (path.key "is"))
    | some test, none => readSide child false test (path.key "is")
    | none, some test => readSide child true test (path.key "not")
    | some test, some negation =>
      if negation.isTrue then readSide child true test (path.key "is")
      else malformed .isAndNot path := by
  unfold readTest readTestKey
  cases his : raw.get? "is" with
  | none =>
    cases hnot : raw.get? "not" with
    | none => simp only [his, readCondition, Outcome.ok_bind]; rfl
    | some test => simp only [hnot, readSide, Outcome.ok_bind]
  | some test =>
    cases hnot : raw.get? "not" with
    | none => simp only [his, readSide, Outcome.ok_bind]
    | some negation =>
      simp only
      cases negation with
      | bool b => cases b <;> simp only [his, readSide, Value.isTrue, Outcome.ok_bind] <;> rfl
      | _ => rfl

def SameTest (child : ChildReader) (raw raw' : Entries) : Prop := ∀ path path',
  (readTest child raw path).withoutPaths (Prod.map id Node.withoutPaths) =
    (readTest child raw' path').withoutPaths (Prod.map id Node.withoutPaths)

theorem readSide_like {v v' : Value} (h : TestLike child v v') (negated : Bool)
    (path path' : Path) :
    (readSide child negated v path).withoutPaths (Prod.map id Node.withoutPaths) =
      (readSide child negated v' path').withoutPaths (Prod.map id Node.withoutPaths) :=
  withoutPaths_bind (h.2 path path') fun _ _ hnode =>
    withoutPaths_ok (congrArg (Prod.mk negated) hnode)

/-- Either key of a test may hold another spelling. -/
theorem sameTest_of_keys {raw raw' : Entries}
    (his : Option.Rel (TestLike child) (raw.get? "is") (raw'.get? "is"))
    (hnot : Option.Rel (TestLike child) (raw.get? "not") (raw'.get? "not")) :
    SameTest child raw raw' := by
  intro path path'
  rw [readTest_eq, readTest_eq]
  generalize raw.get? "is" = is, raw'.get? "is" = is' at his
  generalize raw.get? "not" = negation, raw'.get? "not" = negation' at hnot
  cases his with
  | none =>
    cases hnot with
    | none => rfl
    | some hnot => exact readSide_like hnot true _ _
  | some his =>
    cases hnot with
    | none => exact readSide_like his false _ _
    | some hnot =>
      simp only [hnot.1]
      split
      · exact readSide_like his true _ _
      · rfl

theorem sameTest_of_eq {raw raw' : Entries} (hsteady : ∀ v, NodeLike child v v)
    (his : raw.get? "is" = raw'.get? "is") (hnot : raw.get? "not" = raw'.get? "not") :
    SameTest child raw raw' := by
  refine sameTest_of_keys ?_ ?_
  · rw [his]
    exact optionRel_self (testLike_self hsteady) _
  · rw [hnot]
    exact optionRel_self (testLike_self hsteady) _

/-- Under `not` alone a test means the same as under `is` beside a true `not`. -/
theorem sameTest_of_negation {raw raw' : Entries} {test : Value} (hsteady : ∀ v, NodeLike child v v)
    (his : raw.get? "is" = none) (hnot : raw.get? "not" = some test)
    (his' : raw'.get? "is" = some test) (hnot' : raw'.get? "not" = some (.bool true)) :
    SameTest child raw raw' := by
  intro path path'
  simp only [readTest_eq, his, hnot, his', hnot', Value.isTrue, if_true]
  exact readSide_like (testLike_self hsteady test) true _ _

theorem read_like {raw raw' : Entries} (htest : SameTest child raw raw')
    (hthen : BranchLike child (raw.field "then") (raw'.field "then")) (path path' : Path) :
    (read child raw path).withoutPaths Case.withoutPaths =
      (read child raw' path').withoutPaths Case.withoutPaths := by
  rw [read_eq, read_eq]
  refine withoutPaths_bind (htest path path') fun test test' h => ?_
  refine withoutPaths_bind (hthen _ _) fun branch branch' hbranch => withoutPaths_ok ?_
  obtain ⟨hnegated, hcondition⟩ : test.1 = test'.1 ∧ test.2.withoutPaths = test'.2.withoutPaths :=
    Prod.mk.inj h
  have hbranch : branch.map Node.withoutPaths = branch'.map Node.withoutPaths := hbranch
  simp only [Case.withoutPaths, hnegated, hcondition, hbranch]

end Case

namespace Guard

abbrev eraseSwitchCase : Case Node × Option Node → Case Node × Option Node :=
  Prod.map Case.withoutPaths eraseBranch

/-- The cases and the last branch of a conditional, without their paths. -/
abbrev eraseArms : List (Case Node) × Option Node → List (Case Node) × Option Node :=
  Prod.map (List.map Case.withoutPaths) eraseBranch

/-- The cases and the last branch of a conditional. -/
def readArms (child : ChildReader) (raw : Entries) (path : Path) :
    Checked (List (Case Node) × Option Node) := do
  let (cases, fallback) ← readCases child raw path
  let own ← Case.readBranch child (raw.field "otherwise") (path.key "otherwise")
  return (cases, own <|> fallback)

/-- Makes a conditional, which needs a branch somewhere. -/
def ofArms (reference : Reference) (arms : List (Case Node) × Option Node) (path : Path) :
    Checked (Guard Node) :=
  if arms.2.isNone && arms.1.all fun c => c.branch.isNone then malformed .noBranch path
  else return { reference, cases := arms.1, otherwise := arms.2, path }

theorem read_eq (entries : Entries) (path : Path) : read child (.map entries) path = (do
    let reference ← readReference entries path
    let arms ← readArms child entries path
    ofArms reference arms path) := by
  simp only [read, readArms, Value.asEntries, bind_assoc, pure_bind, Outcome.ok_bind]
  rfl

theorem ofArms_like (reference : Reference) {arms arms' : List (Case Node) × Option Node}
    (h : eraseArms arms = eraseArms arms') (path path' : Path) :
    (ofArms reference arms path).withoutPaths Guard.withoutPaths =
      (ofArms reference arms' path').withoutPaths Guard.withoutPaths := by
  obtain ⟨hcases, hlast⟩ : arms.1.map Case.withoutPaths = arms'.1.map Case.withoutPaths ∧
      arms.2.map Node.withoutPaths = arms'.2.map Node.withoutPaths := Prod.mk.inj h
  have hnone : arms.2.isNone = arms'.2.isNone := by
    simpa only [Option.isNone_map] using congrArg Option.isNone hlast
  have hall : ∀ cases : List (Case Node), (cases.all fun c => c.branch.isNone) =
      (cases.map Case.withoutPaths).all fun c => c.branch.isNone := by
    intro cases
    simp [List.all_map, Function.comp_def, Case.withoutPaths]
  unfold ofArms
  rw [hnone, hall, hcases, ← hall]
  split
  · rfl
  · exact withoutPaths_ok (by simp only [Guard.withoutPaths, hcases, hlast])

/-- Two objects hold the same cases and the same last branch. -/
def SameArms (child : ChildReader) (raw raw' : Entries) : Prop := ∀ path path',
  (readArms child raw path).withoutPaths eraseArms =
    (readArms child raw' path').withoutPaths eraseArms

theorem read_like {raw raw' : Entries}
    (hreference : ∀ path path', (readReference raw path).withoutPaths id =
      (readReference raw' path').withoutPaths id)
    (harms : SameArms child raw raw') (path path' : Path) :
    (read child (.map raw) path).withoutPaths Guard.withoutPaths =
      (read child (.map raw') path').withoutPaths Guard.withoutPaths := by
  rw [read_eq, read_eq]
  refine withoutPaths_bind_id (hreference path path') fun reference => ?_
  exact withoutPaths_bind (harms path path') fun _ _ h => ofArms_like reference h path path'

theorem or_erase {own own' fallback fallback' : Option Node}
    (hown : eraseBranch own = eraseBranch own')
    (hfallback : eraseBranch fallback = eraseBranch fallback') :
    eraseBranch (own <|> fallback) = eraseBranch (own' <|> fallback') := by
  cases own <;> cases own' <;> first | exact hfallback | exact hown | cases hown

/-- The last branch does not depend on paths. -/
theorem lastBranch_like {branches branches' : List (Option Node)}
    (h : branches.map eraseBranch = branches'.map eraseBranch) :
    eraseBranch (lastBranch branches) = eraseBranch (lastBranch branches') := by
  -- For the induction the branches kept so far have to be any two that are the same.
  have hfold : ∀ last last' : Option Node, eraseBranch last = eraseBranch last' →
      eraseBranch (branches.foldl (fun last branch => branch <|> last) last) =
        eraseBranch (branches'.foldl (fun last branch => branch <|> last) last') := by
    induction branches generalizing branches' with
    | nil =>
      obtain rfl := List.map_eq_nil_iff.1 h.symm
      exact fun last last' hlast => hlast
    | cons branch rest ih =>
      cases branches' with
      | nil => cases h
      | cons branch' rest' =>
        obtain ⟨hbranch, hrest⟩ := List.cons.inj h
        exact fun last last' hlast => ih hrest _ _ (or_erase hbranch hlast)
  exact hfold none none rfl

theorem readCases_of_none {raw : Entries} (h : raw.get? "switch" = none) (path : Path) :
    readCases child raw path = (do
      let case ← Case.read child raw path
      return ([case], none)) := by
  simp only [readCases, h]

/-- Without a switch an object is a case itself. -/
theorem sameArms_of_case {raw raw' : Entries} (hswitch : raw.get? "switch" = none)
    (hswitch' : raw'.get? "switch" = none) (htest : Case.SameTest child raw raw')
    (hthen : BranchLike child (raw.field "then") (raw'.field "then"))
    (hotherwise : BranchLike child (raw.field "otherwise") (raw'.field "otherwise")) :
    SameArms child raw raw' := by
  intro path path'
  simp only [readArms, readCases_of_none hswitch, readCases_of_none hswitch', bind_assoc, pure_bind]
  refine withoutPaths_bind (Case.read_like htest hthen path path') fun case case' hcase => ?_
  refine withoutPaths_bind (hotherwise _ _) fun own own' hown => withoutPaths_ok ?_
  simp only [eraseArms, Prod.map, List.map_cons, List.map_nil, hcase, or_erase hown rfl]

/-- Two values are read as the same case of a switch. -/
def SwitchCaseLike (child : ChildReader) (v v' : Value) : Prop := ∀ path path',
  (readSwitchCase child v path).withoutPaths eraseSwitchCase =
    (readSwitchCase child v' path').withoutPaths eraseSwitchCase

theorem switchCaseLike_map {raw raw' : Entries} (htest : Case.SameTest child raw raw')
    (hthen : BranchLike child (raw.field "then") (raw'.field "then"))
    (hotherwise : BranchLike child (raw.field "otherwise") (raw'.field "otherwise")) :
    SwitchCaseLike child (.map raw) (.map raw') := by
  intro path path'
  simp only [readSwitchCase, Value.asEntries, Outcome.ok_bind]
  refine withoutPaths_bind (Case.read_like htest hthen path path') fun case case' hcase => ?_
  refine withoutPaths_bind (hotherwise _ _) fun own own' hown => withoutPaths_ok ?_
  exact Prod.ext hcase hown

end Guard

/-- Two values are lists with related items, or the same value. -/
def ListLike (R : Value → Value → Prop) (v v' : Value) : Prop :=
  v = v' ∨ ∃ items items', v.items? = some items ∧ v'.items? = some items' ∧
    List.Forall₂ R items items'

theorem ListLike.mono {R S : Value → Value → Prop} {v v' : Value} (h : ListLike R v v')
    (hRS : ∀ v v', R v v' → S v v') : ListLike S v v' := by
  rcases h with rfl | ⟨items, items', hv, hv', hitems⟩
  · exact .inl rfl
  · exact .inr ⟨items, items', hv, hv', hitems.imp fun v v' hR => hRS v v' hR⟩

theorem listLike_asItems {R : Value → Value → Prop} (hR : ∀ v, R v v) {v v' : Value}
    (h : ListLike R v v') : (∃ items items', List.Forall₂ R items items' ∧
      (∀ path, v.asItems path = .ok items) ∧ ∀ path, v'.asItems path = .ok items') ∨
    ∃ m, (∀ path, v.asItems path = malformed m path) ∧ ∀ path, v'.asItems path = malformed m path := by
  rcases h with rfl | ⟨items, items', hv, hv', hitems⟩
  · cases hv : v.items? with
    | none => exact .inr ⟨_, fun path => by rw [Value.asItems, hv], fun path => by rw [Value.asItems, hv]⟩
    | some items =>
      exact .inl ⟨items, items, List.forall₂_same.2 fun item _ => hR item,
        fun path => by rw [Value.asItems, hv], fun path => by rw [Value.asItems, hv]⟩
  · exact .inl ⟨items, items', hitems, fun path => by rw [Value.asItems, hv],
      fun path => by rw [Value.asItems, hv']⟩

/-- Reads every item of a list. -/
def readList {α : Type} (read : Value → Path → Checked α) (raw : Value) (path : Path) :
    Checked (List α) := do
  let items ← raw.asItems path
  readEach read items path

/-- Lists with items that are read alike are read alike. -/
theorem readList_like {α γ : Type} {erase : α → γ} {read : Value → Path → Checked α}
    {R : Value → Value → Prop}
    (hR : ∀ v v', R v v' → ∀ path path',
      (read v path).withoutPaths erase = (read v' path').withoutPaths erase)
    (hself : ∀ v, R v v) {v v' : Value} (h : ListLike R v v') (path path' : Path) :
    (readList read v path).withoutPaths (List.map erase) =
      (readList read v' path').withoutPaths (List.map erase) := by
  unfold readList
  rcases listLike_asItems hself h with ⟨items, items', hitems, hv, hv'⟩ | ⟨m, hv, hv'⟩
  · rw [hv, hv']
    exact withoutPaths_readEach (hitems.imp fun v v' hvv' => hR v v' hvv') path path'
  · rw [hv, hv']
    rfl

namespace Guard

/-- What the cases of a switch amount to. -/
def ofSwitch (cases : List (Case Node × Option Node)) (path : Path) :
    Checked (List (Case Node) × Option Node) :=
  if cases.isEmpty then malformed .emptySwitch path
  else return (cases.map Prod.fst, lastBranch (cases.map Prod.snd))

theorem readCases_of_switch {raw : Entries} {switch : Value}
    (h : raw.get? "switch" = some switch) (path : Path) : readCases child raw path = (do
      let cases ← readList (readSwitchCase child) switch (path.key "switch")
      ofSwitch cases (path.key "switch")) := by
  simp only [readCases, h, readList, bind_assoc]
  rfl

theorem ofSwitch_like {cases cases' : List (Case Node × Option Node)}
    (h : cases.map eraseSwitchCase = cases'.map eraseSwitchCase) (path path' : Path) :
    (ofSwitch cases path).withoutPaths eraseArms = (ofSwitch cases' path').withoutPaths eraseArms := by
  have hempty : cases.isEmpty = cases'.isEmpty := by
    simpa only [List.isEmpty_map] using congrArg List.isEmpty h
  have hfirst : (cases.map Prod.fst).map Case.withoutPaths =
      (cases'.map Prod.fst).map Case.withoutPaths := by
    have hmap := congrArg (List.map Prod.fst) h
    rw [List.map_map, List.map_map] at hmap ⊢
    exact hmap
  have hsecond : (cases.map Prod.snd).map eraseBranch = (cases'.map Prod.snd).map eraseBranch := by
    have hmap := congrArg (List.map Prod.snd) h
    rw [List.map_map, List.map_map] at hmap ⊢
    exact hmap
  unfold ofSwitch
  rw [hempty]
  split
  · rfl
  · exact withoutPaths_ok (Prod.ext hfirst (lastBranch_like hsecond))

theorem sameArms_of_switch {raw raw' : Entries} {switch switch' : Value}
    (hself : ∀ v, SwitchCaseLike child v v) (hswitch : raw.get? "switch" = some switch)
    (hswitch' : raw'.get? "switch" = some switch')
    (h : ListLike (SwitchCaseLike child) switch switch')
    (hotherwise : BranchLike child (raw.field "otherwise") (raw'.field "otherwise")) :
    SameArms child raw raw' := by
  intro path path'
  simp only [readArms, readCases_of_switch hswitch, readCases_of_switch hswitch']
  have hcases := readList_like (fun _ _ h => h) hself h (path.key "switch") (path'.key "switch")
  refine withoutPaths_bind (withoutPaths_bind hcases fun cases cases' h => ofSwitch_like h _ _)
    fun arms arms' harms => ?_
  obtain ⟨hlist, hfallback⟩ := Prod.mk.inj harms
  refine withoutPaths_bind (hotherwise _ _) fun own own' hown => withoutPaths_ok ?_
  exact Prod.ext hlist (or_erase hown hfallback)

/-- A conditional without a switch means the same as a switch with one case, whether its last branch
stands beside the switch or in the case. -/
theorem sameArms_of_oneCase {raw raw' case : Entries} {switch : Value}
    (hsteady : ∀ v, NodeLike child v v) (hswitch : raw.get? "switch" = none)
    (hswitch' : raw'.get? "switch" = some switch) (hitems : switch.items? = some [.map case])
    (hcase : ∀ name ∈ ["is", "not", "then"], raw.get? name = case.get? name)
    (hotherwise : (raw.field "otherwise" = raw'.field "otherwise" ∧ case.field "otherwise" = .null) ∨
      (raw.field "otherwise" = case.field "otherwise" ∧ raw'.field "otherwise" = .null)) :
    SameArms child raw raw' := by
  intro path path'
  have hbranch : ∀ v, BranchLike child v v := fun v => branchLike_of_nodeLike rfl (hsteady v)
  have htest := Case.sameTest_of_eq hsteady (hcase "is" (by decide)) (hcase "not" (by decide))
  have hthen : BranchLike child (raw.field "then") (case.field "then") := by
    rw [Entries.field, Entries.field, hcase "then" (by decide)]
    exact hbranch _
  have hone : readCases child raw' path' = (do
      let case ← readSwitchCase child (.map case) ((path'.key "switch").index 0)
      return ([case.1], case.2)) := by
    simp only [readCases_of_switch hswitch', readList, Value.asItems, hitems, Outcome.ok_bind,
      readEach_singleton, bind_assoc, pure_bind]
    refine bind_congr fun arm => ?_
    cases harm : arm.2 <;> simp [ofSwitch, lastBranch, harm]
  simp only [readArms, hone, readCases_of_none hswitch, readSwitchCase, Value.asEntries,
    Outcome.ok_bind, bind_assoc, pure_bind]
  refine withoutPaths_bind (Case.read_like htest hthen _ _) fun first first' hfirst => ?_
  have hcases : [first].map Case.withoutPaths = [first'].map Case.withoutPaths :=
    congrArg (fun c => [c]) hfirst
  rcases hotherwise with ⟨hown, hnull⟩ | ⟨hown, hnull⟩
  · simp only [hnull, hown, Case.readBranch_null, Outcome.ok_bind]
    refine withoutPaths_bind (hbranch _ _ _) fun own own' h => withoutPaths_ok ?_
    exact Prod.ext hcases (or_erase h rfl)
  · simp only [hnull, hown, Case.readBranch_null, Outcome.ok_bind]
    refine withoutPaths_bind (hbranch _ _ _) fun own own' h => withoutPaths_ok ?_
    refine Prod.ext hcases ?_
    cases own <;> exact h

end Guard

theorem readReference_of_eq {raw raw' : Entries} (href : raw.get? "ref" = raw'.get? "ref")
    (hkey : raw.get? "referenceKey" = raw'.get? "referenceKey") (path path' : Path) :
    (Guard.readReference raw path).withoutPaths id =
      (Guard.readReference raw' path').withoutPaths id := by
  unfold Guard.readReference
  rw [href, hkey]
  split
  · exact Reference.read_steady _ _ _
  · exact Reference.read_steady _ _ _
  · rfl

def GuardLike (child : ChildReader) (v v' : Value) : Prop := ∀ path path',
  (Guard.read child v path).withoutPaths Guard.withoutPaths =
    (Guard.read child v' path').withoutPaths Guard.withoutPaths

/-- The two kinds of members of alternatives, without their paths. -/
abbrev eraseMember : Node ⊕ Guard Node → Node ⊕ Guard Node :=
  Sum.map Node.withoutPaths Guard.withoutPaths

/-- Two values are read as the same member of alternatives. -/
def MemberLike (child : ChildReader) (v v' : Value) : Prop := ∀ path path',
  (Node.readMatch child v path).withoutPaths eraseMember =
    (Node.readMatch child v' path').withoutPaths eraseMember

section Self
variable (hsteady : ∀ v, NodeLike child v v)
include hsteady

theorem branchLike_self (v : Value) : BranchLike child v v :=
  branchLike_of_nodeLike rfl (hsteady v)

theorem switchCaseLike_self (v : Value) : Guard.SwitchCaseLike child v v := by
  intro path path'
  refine withoutPaths_bind_id (v.asEntries_steady path path') fun entries => ?_
  exact Guard.switchCaseLike_map (Case.sameTest_of_eq hsteady rfl rfl)
    (branchLike_self hsteady _) (branchLike_self hsteady _) path path'

theorem sameArms_self (raw : Entries) : Guard.SameArms child raw raw := by
  cases hswitch : raw.get? "switch" with
  | none =>
    exact Guard.sameArms_of_case hswitch hswitch (Case.sameTest_of_eq hsteady rfl rfl)
      (branchLike_self hsteady _) (branchLike_self hsteady _)
  | some switch =>
    exact Guard.sameArms_of_switch (switchCaseLike_self hsteady) hswitch hswitch (.inl rfl)
      (branchLike_self hsteady _)

theorem guardLike_self (v : Value) : GuardLike child v v := by
  intro path path'
  refine withoutPaths_bind_id (v.asEntries_steady path path') fun entries => ?_
  exact Guard.read_like (readReference_of_eq rfl rfl) (sameArms_self hsteady entries) path path'

theorem memberLike_self (v : Value) : MemberLike child v v := by
  intro path path'
  unfold Node.readMatch
  split
  · split
    · exact withoutPaths_bind (hsteady _ _ _) fun _ _ h => withoutPaths_ok (congrArg Sum.inl h)
    · split
      · exact withoutPaths_bind (hsteady _ _ _) fun _ _ h => withoutPaths_ok (congrArg Sum.inl h)
      · exact withoutPaths_bind (guardLike_self hsteady _ _ _) fun _ _ h =>
          withoutPaths_ok (congrArg Sum.inr h)
  · rfl

end Self

end Conditionals

end Schemata
