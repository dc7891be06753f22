import Schemata.Node.Kind
import Schemata.Path
import Schemata.Value.Spelling
/-!
Why a description cannot be compiled.

An error is a cause and the path of the part it is about. Four things can be wrong: the description
does not have the expected shape, it asks for something that the generated code cannot express, two
different schemas have one name, or it is nested too deeply. All wording is in this module.
-/

namespace Schemata

/-- Ways in which a description does not have the expected shape. -/
inductive Malformation where
  | notDescription (got : String)
  | noType
  | unknownType (name : String)
  | misplaced (key : String) (owner : Kind)
  | notObject (got : String)
  | notList (got : String)
  | notText (key : String)
  | notBoolean (key : String)
  | unknownPresence (value : Value)
  | ruleShape
  | ruleArguments
  | unwritableNumber (value : Value)
  | unwritableKind (got : String)
  | literalKey
  | propertyKey (key : Value)
  | noMatches
  | matchShape
  | mixedMatches
  | emptyMatches
  | referenceText (key : String)
  | referencePath
  | referenceAncestor
  | emptySwitch
  | noBranch
  | isAndNot
  | className (value : Value)
  | branchKind (branch base : Kind)
  | numberExpected (rule : String)
  | notNumber (rule : String) (value : Value)
  | endlessNumber (rule : String) (value : Value)
  | extraArguments (rule : String) (arity : Nat)
  | patternExpected
  | letterCase (value : Value)
  | signName (value : Value)
  | dateExpected (rule : String)
  | notDate (rule : String) (value : Value)
deriving Repr, Inhabited

/-- Limits of the conditionals that can be expressed. -/
inductive ConditionalLimit where
  | noReference
  | notProperty
  | noRefinements
  | nested
  | outside (reference : String)
deriving DecidableEq, Repr, Inhabited

/-- Where a list of values cannot be expressed. -/
inductive ValueListLimit where
  | allowed (kind : Kind)
  | allowedOrInvalid (kind : Kind)
deriving DecidableEq, Repr, Inhabited

/-- What the generated code cannot express. -/
inductive Feature where
  | sourceType (name : String)
  | sourceKey (feature : String)
  | matchMode (value : Value)
  | dynamicValue
  | conditional (limit : ConditionalLimit)
  | referenceType (value : Value)
  | invertedPattern
  | relativeDate (rule : String)
  | ruleRefinement (rule : String)
  | requiredAny
  | invalidValues
  | valueList (limit : ValueListLimit)
  | strip
deriving Repr, Inhabited

/-- Why a description cannot be compiled. -/
inductive Cause where
  | malformed (m : Malformation)
  | conflict (name : String) (first : Path)
  | unsupportedRule (kind : Kind) (rule : String)
  | unsupported (feature : Feature)
  | tooDeep (limit : Int)
deriving Repr, Inhabited

/-- An error: a cause and the part of the description it is about. -/
structure CompileError where
  cause : Cause
  path : Path
deriving Repr, Inhabited

namespace Malformation

def reason : Malformation → String
  | notDescription got => "Expected a description object, got " ++ got
  | noType => "Missing or invalid 'type'"
  | unknownType name => "Unknown type '" ++ name ++ "'"
  | misplaced key owner => "'" ++ key ++ "' is only valid on " ++ owner.name ++ " nodes"
  | notObject got => "Expected an object, got " ++ got
  | notList got => "Expected a list, got " ++ got
  | notText key => "'" ++ key ++ "' must be a string"
  | notBoolean key => "'" ++ key ++ "' must be a boolean"
  | unknownPresence value => "Unknown presence '" ++ value.shown ++ "'"
  | ruleShape => "Rule must be an object with a 'name'"
  | ruleArguments => "Rule 'args' must be a list or object"
  | unwritableNumber value => value.shown ++ " cannot be written as a literal"
  | unwritableKind got => got ++ " cannot be written as a literal"
  | literalKey => "Literal object keys must be strings"
  | propertyKey key => "Property name " ++ key.spelled ++ " is not a string"
  | noMatches => "Alternatives require 'matches'"
  | matchShape => "Match must be an object"
  | mixedMatches => "Alternatives cannot mix plain and conditional matches"
  | emptyMatches => "Alternatives require at least one match"
  | referenceText key => "Invalid reference '" ++ key ++ "'"
  | referencePath => "Reference 'path' must be a list of strings"
  | referenceAncestor => "Reference 'ancestor' must be an integer"
  | emptySwitch => "'switch' must not be empty"
  | noBranch => "Conditional needs 'then' or 'otherwise'"
  | isAndNot => "Conditional cannot have both 'is' and 'not'"
  | className value => "className " ++ value.spelled ++ " is not a valid identifier"
  | branchKind branch base =>
    "Cannot apply a " ++ branch.name ++ " branch to a " ++ base.name ++ " schema"
  | numberExpected rule => "Rule '" ++ rule ++ "' expects a numeric argument"
  | notNumber rule value =>
    "Rule '" ++ rule ++ "' argument " ++ value.spelled ++ " is not a number"
  | endlessNumber rule value =>
    "Rule '" ++ rule ++ "' argument " ++ value.shown ++ " cannot be written as a literal"
  | extraArguments rule arity =>
    "Rule '" ++ rule ++ "' takes " ++ String.ofList (Decimal.digits arity) ++ " argument(s)"
  | patternExpected => "Rule 'pattern' expects a regex string"
  | letterCase value =>
    "Rule 'case' direction " ++ value.spelled ++ " is not 'lower' or 'upper'"
  | signName value =>
    "Rule 'sign' value " ++ value.spelled ++ " is not 'positive' or 'negative'"
  | dateExpected rule => "Rule '" ++ rule ++ "' expects a date"
  | notDate rule value => "Rule '" ++ rule ++ "' argument " ++ value.spelled ++ " is not a date"

end Malformation

def ConditionalLimit.detail : ConditionalLimit → String
  | noReference => "schema conditions without a reference"
  | notProperty => "conditionals are only supported on object properties"
  | noRefinements => "the target has no refinement escape hatch"
  | nested => "nested conditionals"
  | outside reference => "reference '" ++ reference ++ "' points outside the enclosing object"

def ValueListLimit.detail : ValueListLimit → String
  | allowed kind => "allowed values on " ++ kind.name
  | allowedOrInvalid kind => "allowed or invalid values on " ++ kind.name

namespace Feature

def name : Feature → String
  | sourceType name => name
  | sourceKey feature => feature
  | matchMode _ => "alternatives match mode"
  | dynamicValue => "dynamic value"
  | conditional _ => "conditional"
  | referenceType _ => "reference"
  | invertedPattern => "inverted pattern"
  | relativeDate _ => "relative date"
  | ruleRefinement _ => "refinement"
  | requiredAny => "required any"
  | invalidValues => "invalid values"
  | valueList _ => "value list"
  | strip => "strip"

/-- What else there is to say about a feature. -/
def detail? : Feature → Option String
  | sourceType name => some ("Joi type '" ++ name ++ "' has no Zod counterpart")
  | sourceKey _ => none
  | matchMode value => some ("match '" ++ value.shown ++ "'")
  | dynamicValue => some "references and special values cannot be inlined"
  | conditional limit => some limit.detail
  | referenceType value => some ("reference type '" ++ value.shown ++ "'")
  | invertedPattern => none
  | relativeDate rule => some ("'" ++ rule ++ "' compared with 'now'")
  | ruleRefinement rule => some ("rule '" ++ rule ++ "' needs a custom refinement")
  | requiredAny => some "the target has no refinement escape hatch"
  | invalidValues => some "the target has no refinement escape hatch"
  | valueList limit => some limit.detail
  | strip => none

end Feature

def Cause.reason : Cause → String
  | malformed m => m.reason
  | conflict name first =>
    "className '" ++ name ++ "' is already declared at " ++ first.label
      ++ " with a different schema"
  | unsupportedRule kind rule =>
    "Unsupported rule '" ++ rule ++ "' for type '" ++ kind.name ++ "'"
  | unsupported feature =>
    let text := "Unsupported feature '" ++ feature.name ++ "'"
    match feature.detail? with
    | some detail => text ++ ": " ++ detail
    | none => text
  | tooDeep limit =>
    "Description nested deeper than " ++ String.ofList (Decimal.intDigits limit) ++ " levels"

/-- The values that a malformation spells. -/
def Malformation.values : Malformation → List Value
  | unknownPresence value | unwritableNumber value | propertyKey value | className value
  | notNumber _ value | endlessNumber _ value | letterCase value | signName value | notDate _ value =>
    [value]
  | _ => []

/-- The values that are spelled when a feature is named. -/
def Feature.values : Feature → List Value
  | matchMode value | referenceType value => [value]
  | _ => []

/-- The values that stand in the wording of a cause. -/
def Cause.values : Cause → List Value
  | malformed m => m.values
  | unsupported feature => feature.values
  | _ => []

/-- Whether a cause can be put into words: no value in it has an integer with too many digits. -/
def Cause.isSpelled (cause : Cause) : Bool := cause.values.all fun v => !v.hasLongInteger

namespace CompileError

def reason (e : CompileError) : String := e.cause.reason

def message (e : CompileError) : String := e.reason ++ " (at " ++ e.path.label ++ ")"

end CompileError

/-- The outcome of a step that may reject a description. -/
abbrev Checked (α : Type) := Except CompileError α

/-- Rejects a description for its shape. -/
def malformed {α : Type} (m : Malformation) (path : Path) : Checked α :=
  .error ⟨.malformed m, path⟩

/-- Rejects a description for what it asks for. -/
def unsupported {α : Type} (feature : Feature) (path : Path) : Checked α :=
  .error ⟨.unsupported feature, path⟩

end Schemata
