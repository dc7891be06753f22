import Schemata.Node.Shape
/-!
Reading conditionals.

The conditions and branches of a conditional are descriptions again. The readers here are given the
reader of descriptions that applies one level below.
-/

namespace Schemata

/-- Reads a description one level below. -/
abbrev ChildReader := Value → Path → Checked Node

namespace Reference

def readSegments (raw : Value) (path : Path) : Checked (List String) :=
  match raw.items? with
  | none => malformed .referencePath path
  | some items =>
    if items.all fun item => item.text?.isSome then .ok (items.filterMap Value.text?)
    else malformed .referencePath path

/-- The level a reference starts at, or the root. -/
def readAncestor (raw : Option Value) (path : Path) : Checked (Scope × Int) :=
  match raw with
  | none => .ok (.value, 1)
  | some (.str "root") => .ok (.root, 0)
  | some (.int n) => .ok (.value, n)
  | some _ => malformed .referenceAncestor path

def readObject (raw : Entries) (path : Path) : Checked Reference := do
  let segments ← readSegments (raw.field "path") (path.key "path")
  let (scope, ancestor) ← readAncestor (raw.get? "ancestor") (path.key "ancestor")
  match raw.get? "type" with
  | none | some (.str "value") => return ⟨segments, ancestor, scope⟩
  | some (.str "global") => return ⟨segments, 0, .context⟩
  | some (.str "local") => return ⟨segments, 0, .inner⟩
  | some other => unsupported (.referenceType other) path

/-- Reads a reference, given as text or as an object. -/
def read (raw : Value) (path : Path) : Checked Reference :=
  match raw with
  | .str key => parse key path
  | raw => do
    let entries ← raw.asEntries path
    readObject entries path

end Reference

namespace Case

/-- The test that stands for a missing one: the value is there, and not false in any sense. -/
def presentCondition (path : Path) : Node :=
  { kind := .any
    flags := { presence := some .required }
    invalids := [.null, .bool false, .int 0, .str ""]
    path := path }

/-- The test that a value is one of some listed values. -/
def listedCondition (values : List Value) (path : Path) : Node :=
  { kind := .any
    flags := { presence := some .required }
    valids := values
    path := path }

/-- Whether a value is a description rather than a value to compare with. -/
def isDescription : Value → Bool
  | .map entries => Entries.has entries "type"
  | _ => false

/-- Reads a test: a description, a value to be equal to, or values to be one of. -/
def readCondition (child : ChildReader) (raw : Option Value) (path : Path) : Checked Node :=
  match raw with
  | none => .ok (presentCondition path)
  | some raw =>
    if isDescription raw then child raw path
    else
      match raw.items? with
      | some items => do
        checkLiterals false items path 0
        return listedCondition items path
      | none => do
        checkLiteral false raw path
        return listedCondition [raw] path

/-- Which of the two keys holds the test, and whether the test is negated. A true value under `not`
beside `is` only says that the test is negated. -/
def readTestKey (raw : Entries) (path : Path) : Checked (Bool × String) :=
  match raw.get? "is", raw.get? "not" with
  | some _, some (.bool true) => .ok (true, "is")
  | some _, some _ => malformed .isAndNot path
  | none, some _ => .ok (true, "not")
  | _, none => .ok (false, "is")

/-- A branch; null counts as a missing one. -/
def readBranch (child : ChildReader) (raw : Value) (path : Path) : Checked (Option Node) :=
  match raw with
  | .null => .ok none
  | raw => do
    let node ← child raw path
    return some node

def read (child : ChildReader) (raw : Entries) (path : Path) : Checked (Case Node) := do
  let (negated, key) ← readTestKey raw path
  let condition ← readCondition child (raw.get? key) (path.key key)
  let branch ← readBranch child (raw.field "then") (path.key "then")
  return { condition, negated, branch }

end Case

namespace Guard

/-- The reference of a conditional, under one of two keys. -/
def readReference (raw : Entries) (path : Path) : Checked Reference :=
  match raw.get? "ref", raw.get? "referenceKey" with
  | some reference, _ => Reference.read reference (path.key "ref")
  | none, some reference => Reference.read reference (path.key "referenceKey")
  | none, none => unsupported (.conditional .noReference) path

/-- One case of a switch, and the branch it gives for the case that no test holds. -/
def readSwitchCase (child : ChildReader) (raw : Value) (path : Path) :
    Checked (Case Node × Option Node) := do
  let entries ← raw.asEntries path
  let case ← Case.read child entries path
  let otherwise ← Case.readBranch child (entries.field "otherwise") (path.key "otherwise")
  return (case, otherwise)

/-- The last of some branches that is there. -/
def lastBranch (branches : List (Option Node)) : Option Node :=
  branches.foldl (fun last branch => branch <|> last) none

/-- The cases of a conditional, and the branch they give for the case that no test holds. -/
def readCases (child : ChildReader) (raw : Entries) (path : Path) :
    Checked (List (Case Node) × Option Node) :=
  match raw.get? "switch" with
  | some switch => do
    let items ← switch.asItems (path.key "switch")
    let cases ← readEach (readSwitchCase child) items (path.key "switch")
    if cases.isEmpty then malformed .emptySwitch (path.key "switch")
    else return (cases.map Prod.fst, lastBranch (cases.map Prod.snd))
  | none => do
    let case ← Case.read child raw path
    return ([case], none)

/-- Reads a conditional. Its own last branch comes before those of its cases. -/
def read (child : ChildReader) (raw : Value) (path : Path) : Checked (Guard Node) := do
  let entries ← raw.asEntries path
  let reference ← readReference entries path
  let (cases, fallback) ← readCases child entries path
  let own ← Case.readBranch child (entries.field "otherwise") (path.key "otherwise")
  let otherwise := own <|> fallback
  if otherwise.isNone && cases.all fun c => c.branch.isNone then malformed .noBranch path
  else return { reference, cases, otherwise, path }

end Guard

end Schemata
