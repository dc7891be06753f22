import Schemata.Code.Render
import Schemata.Failure
import Schemata.Node.Basic
import Schemata.Value.Key
/-!
How rules are written.

An emitter takes the code of a node and a rule, and gives the code with the rule added. The forms are the
emitters that the table of built-in rules is made of. Most of them call a method of the target with the
numeric arguments of the rule; rules without such a method are refinements by a predicate, given as a
template. A table can hold emitters of any other type as well.
-/

namespace Schemata

/-- The emitters of the built-in rules. -/
inductive RuleForm where
  /-- A method with that many numeric arguments. -/
  | method (name : String) (arity : Nat)
  /-- A method without arguments, whatever arguments the rule has. -/
  | format (name : String)
  /-- A fixed regular expression. -/
  | regex (pattern : String)
  /-- The regular expression in the first argument. -/
  | pattern
  | hex
  | trim
  | letterCase
  | ip
  | sign
  | port
  /-- A method that compares with the date in the first argument. -/
  | dateBound (name : String)
  /-- A predicate and its message, both templates for that many numeric arguments. -/
  | refinement (predicate message : String) (arity : Nat)
deriving DecidableEq, Repr, Inhabited

/-- What an emitter is told besides the rule: the kind of the node, the place of the rule, and whether
predicates may be used. -/
structure RuleSite where
  kind : Kind
  path : Path
  refinements : Bool := true
deriving Repr, Inhabited

namespace Rule

def firstArgument (rule : Rule) : Value := rule.args.head?.getD .null

/-- The entry of an argument that is an object, null otherwise. -/
def optionOf (argument : Value) (name : String) : Value :=
  match argument with
  | .map entries => Entries.field entries name
  | _ => .null

def numberArgument (rule : Rule) (path : Path) (i : Nat) : Checked Value :=
  match rule.args[i]? with
  | none => malformed (.numberExpected rule.name) path
  | some value =>
    if !value.isNumber then malformed (.notNumber rule.name value) path
    else if !value.isFinite then malformed (.endlessNumber rule.name value) path
    else .ok value

/-- Checks that all arguments after the first ones are null. -/
def checkExtra (rule : Rule) (path : Path) (arity : Nat) : Checked Unit :=
  if (rule.args.drop arity).any fun argument => !argument.isNull then
    malformed (.extraArguments rule.name arity) path
  else .ok ()

/-- The numeric argument at a given place, as a literal. -/
def numberLiteral (rule : Rule) (path : Path) (i : Nat) : Written Value := do
  let value ← (rule.numberArgument path i).toWritten
  value.toLiteral
  return value

/-- The numeric arguments of a rule that has no others, as literals. -/
def numberLiterals (rule : Rule) (path : Path) (arity : Nat) : Written (List Value) := do
  let args ← (List.range arity).mapM (rule.numberLiteral path)
  (rule.checkExtra path arity).toWritten
  return args

end Rule

namespace Text

/-- The letters that may stand behind a regular expression. -/
def regexFlags : List Char := ['d', 'g', 'i', 'm', 's', 'u', 'y']

/-- A text without one line break at its end. -/
def withoutLineBreak (cs : List Char) : List Char :=
  match cs.reverse with
  | '\n' :: rest => rest.reverse
  | _ => cs

/-- Whether a text is written as a regular expression: between two slashes, with nothing but flags
behind the last slash up to the end of the line. -/
def isRegexLiteral (source : String) : Bool :=
  match withoutLineBreak source.toList with
  | '/' :: rest =>
    match rest.reverse.dropWhile regexFlags.contains with
    | '/' :: _ => true
    | _ => false
  | _ => false

/-- Where a reader of templates is: between two arguments, or behind some digits of the place of
one. -/
inductive TemplateMode where
  | outside
  | inside (digits : List Char)

/-- The pieces of a template for `count` arguments. Braces that are doubled stand for themselves. -/
def templatePieces (count : Nat) : TemplateMode → List Char → Except Defect (List Piece)
  | .outside, [] => .ok []
  | .inside _, [] => .error .brokenTemplate
  | .outside, '\x7d' :: '\x7d' :: rest =>
    (templatePieces count .outside rest).map (.char '\x7d' :: ·)
  | .outside, c :: rest =>
    if c = '\x7b' then templatePieces count (.inside []) rest
    else if c = '\x7d' then .error .brokenTemplate
    else (templatePieces count .outside rest).map (.char c :: ·)
  | .inside digits, c :: rest =>
    if c = '\x7b' ∧ digits.isEmpty then (templatePieces count .outside rest).map (.char '\x7b' :: ·)
    else if c.isDigit then templatePieces count (.inside (digits ++ [c])) rest
    else if c = '\x7d' ∧ !digits.isEmpty then
      if Decimal.valueOf digits < count then
        (templatePieces count .outside rest).map (.argument (Decimal.valueOf digits) :: ·)
      else .error .missingArgument
    else .error .brokenTemplate

/-- The pieces of a whole template. -/
def template (count : Nat) (text : String) : Except Defect (List Piece) :=
  templatePieces count .outside text.toList

end Text

namespace RuleForm

/-- The version of an address that is the only one of its list. -/
def versionName (version : Value) : Option String :=
  match version with
  | .str "ipv4" => some "v4"
  | .str "ipv6" => some "v6"
  | _ => none

/-- The one version that an address must have, if there is exactly one. -/
def onlyVersion (versions : Value) : Except Defect (Option String) :=
  match versions with
  | .str _ => .ok (versionName versions)
  | .list [version] => .ok (versionName version)
  | .tuple [version] => .ok (versionName version)
  | .map [(key, version)] =>
    if key.sameKey (.int 0) then .ok (versionName version) else .error .unorderedVersions
  | .list _ | .tuple _ | .map _ | .bytes _ | .null => .ok none
  | versions => if versions.truthy then .error .uncountedVersions else .ok none

/-! ## Emitters -/

def emitMethod (name : String) (arity : Nat) (target : Code) (rule : Rule) (site : RuleSite) :
    Written Code := do
  let args ← rule.numberLiterals site.path arity
  return target.chain ⟨name, args.map .literal⟩

def emitFormat (name : String) (target : Code) : Written Code := return target.chain ⟨name, []⟩

/-- Compares with a regular expression that is written as it is. -/
def chainRegex (target : Code) (source : String) : Code :=
  target.chain ⟨"regex", [.raw source .call]⟩

def emitRegex (source : String) (target : Code) (rule : Rule) (site : RuleSite) : Written Code := do
  (rule.checkExtra site.path 0).toWritten
  return chainRegex target source

/-- The regular expression of a rule: taken over if it stands between slashes, quoted otherwise. -/
def patternArgument (rule : Rule) (path : Path) : Checked Code :=
  match rule.args with
  | .str source :: options =>
    if (Rule.optionOf (options.head?.getD .null) "invert").truthy then
      unsupported .invertedPattern path
    else if Text.isRegexLiteral source then .ok (.raw source .call)
    else .ok (.call "new RegExp" [.literal (.str source)])
  | _ => malformed .patternExpected path

def emitPattern (target : Code) (rule : Rule) (site : RuleSite) : Written Code := do
  let argument ← (patternArgument rule site.path).toWritten
  return target.chain ⟨"regex", [argument]⟩

def emitHex (target : Code) (rule : Rule) : Written Code :=
  if (Rule.optionOf rule.firstArgument "byteAligned").truthy then
    .ok (chainRegex target "/^(?:[a-f0-9]\x7b2\x7d)+$/i")
  else .ok (chainRegex target "/^[a-f0-9]+$/i")

/-- Whether a rule is switched off by its first argument. -/
def isOff (rule : Rule) : Bool :=
  match rule.firstArgument with
  | .bool false => true
  | _ => false

/-- A rule that is switched off leaves the code as it is. -/
def emitTrim (target : Code) (rule : Rule) : Written Code :=
  if isOff rule then .ok target else .ok (target.chain ⟨"trim", []⟩)

def caseMethod (direction : Value) (path : Path) : Checked String :=
  match direction with
  | .str "lower" => .ok "toLowerCase"
  | .str "upper" => .ok "toUpperCase"
  | other => malformed (.letterCase other) path

def emitCase (target : Code) (rule : Rule) (site : RuleSite) : Written Code := do
  let name ← (caseMethod rule.firstArgument site.path).toWritten
  return target.chain ⟨name, []⟩

def versionArguments : Option String → List Code
  | none => []
  | some version => [.record [("version", .literal (.str version))]]

def emitIp (target : Code) (rule : Rule) : Written Code := do
  let version ← (onlyVersion (Rule.optionOf rule.firstArgument "version")).mapError .defect
  return target.chain ⟨"ip", versionArguments version⟩

def signMethod (sign : Value) (path : Path) : Checked String :=
  match sign with
  | .str "positive" => .ok "positive"
  | .str "negative" => .ok "negative"
  | other => malformed (.signName other) path

def emitSign (target : Code) (rule : Rule) (site : RuleSite) : Written Code := do
  let name ← (signMethod rule.firstArgument site.path).toWritten
  return target.chain ⟨name, []⟩

def emitPort (target : Code) : Written Code :=
  return ((target.chain ⟨"int", []⟩).chain ⟨"min", [.literal (.int 0)]⟩).chain
    ⟨"max", [.literal (.int 65535)]⟩

/-- The date that a rule compares with. Numbers and texts are dates; `now` cannot be compared with. -/
def boundDate (name : String) (rule : Rule) (path : Path) : Checked Value :=
  match rule.args with
  | [] => malformed (.dateExpected name) path
  | value :: _ =>
    if value.isText "now" then unsupported (.relativeDate name) path
    else if (value.isNumber || value.text?.isSome) && value.isFinite then .ok value
    else malformed (.notDate name value) path

def emitDateBound (name : String) (target : Code) (rule : Rule) (site : RuleSite) :
    Written Code := do
  let date ← (boundDate name rule site.path).toWritten
  date.toLiteral
  return target.chain ⟨name, [.call "new Date" [.literal date]]⟩

/-- Both templates are filled with the literals of the arguments. -/
def emitRefinement (predicate message : String) (arity : Nat) (target : Code) (rule : Rule)
    (site : RuleSite) : Written Code := do
  if !site.refinements then
    (unsupported (.ruleRefinement rule.name) site.path : Checked Unit).toWritten
  let args ← rule.numberLiterals site.path arity
  let test ← (Text.template arity predicate).mapError .defect
  let wording ← (Text.template arity message).mapError .defect
  return target.chain ⟨"refine",
    [.filled test args, Code.message (Text.filledText (args.map Value.source) wording)]⟩

def emit (form : RuleForm) (target : Code) (rule : Rule) (site : RuleSite) : Written Code :=
  match form with
  | method name arity => emitMethod name arity target rule site
  | format name => emitFormat name target
  | regex source => emitRegex source target rule site
  | pattern => emitPattern target rule site
  | hex => emitHex target rule
  | trim => emitTrim target rule
  | letterCase => emitCase target rule site
  | ip => emitIp target rule
  | sign => emitSign target rule site
  | port => emitPort target
  | dateBound name => emitDateBound name target rule site
  | refinement predicate message arity => emitRefinement predicate message arity target rule site

end RuleForm

/-- The types whose values can be registered for a rule. Each of them has the forms among its values. -/
class Emitter (ε : Type) where
  form : RuleForm → ε
  emit : ε → Code → Rule → RuleSite → Written Code
  emit_form : ∀ f, emit (form f) = f.emit

@[default_instance]
instance : Emitter RuleForm := ⟨id, RuleForm.emit, fun _ => rfl⟩

/-- An emitter of any kind: whatever code it gives, and whatever failure it ends with. -/
structure FreeForm where
  emit : Code → Rule → RuleSite → Written Code

instance : Emitter FreeForm := ⟨fun f => ⟨f.emit⟩, FreeForm.emit, fun _ => rfl⟩

end Schemata
