import Schemata.Code.Basic
/-!
The text of builder code.

Objects have one property a line, arrays too as soon as one of their items has several lines, and
everything inside is indented one level more. A conditional is put in parentheses before a method is
called on it.
-/

namespace Schemata

namespace Text

def callText (callee : String) (args : List String) : String :=
  callee ++ "(" ++ join ", " args ++ ")"

/-- A method call on a target of a given precedence. -/
def methodText (precedence : Precedence) (target name : String) (args : List String) : String :=
  (if precedence = .conditional then "(" ++ target ++ ")" else target)
    ++ "." ++ callText name args

/-- An array: on one line unless an item has several. -/
def arrayText (items : List String) : String :=
  if items.any isMultiline then
    "[\n" ++ concat (items.map fun item => indentation ++ indent item ++ ",\n") ++ "]"
  else "[" ++ join ", " items ++ "]"

/-- An object with one property a line. -/
def objectText (properties : List (String × String)) : String :=
  match properties with
  | [] => "\x7b\x7d"
  | properties =>
    "\x7b\n" ++ concat (properties.map fun (name, text) =>
      indentation ++ propertyName name ++ ": " ++ indent text ++ ",\n") ++ "\x7d"

/-- An object on one line. -/
def recordText (fields : List (String × String)) : String :=
  "\x7b " ++ join ", " (fields.map fun (name, text) => propertyName name ++ ": " ++ text) ++ " \x7d"

/-- A predicate that holds for values that are not listed. -/
def exclusionText (values : List String) : String :=
  "(value) => !" ++ arrayText values ++ ".includes(value)"

/-- Conditions and branches, tried from left to right. -/
def choiceText : List (String × String) → String → String
  | [], otherwise => otherwise
  | (condition, branch) :: rest, otherwise =>
    condition ++ " ? " ++ branch ++ " : " ++ choiceText rest otherwise

/-- A statement that checks one property. -/
def checkText (field schema : String) : String :=
  "check(" ++ quoted field ++ ", " ++ schema ++ ");"

/-- The helper that validates one property and reports its issues under the name of the property. -/
def helperLines : List String :=
  ["const check = (key, schema) => \x7b",
    "  const result = schema.safeParse(value[key]);",
    "  if (!result.success) \x7b",
    "    for (const issue of result.error.issues) \x7b",
    "      ctx.addIssue(\x7b ...issue, path: [key, ...issue.path] \x7d);",
    "    \x7d",
    "  \x7d",
    "\x7d;"]

/-- A function that defines the helper and runs some statements. -/
def checksText (statements : List String) : String :=
  "(value, ctx) => \x7b\n"
    ++ concat ((helperLines ++ statements).map fun line => indentation ++ indent line ++ "\n")
    ++ "\x7d"

/-- A template with texts in the places of its arguments. -/
def filledText (args : List String) : List Piece → String
  | [] => ""
  | .char c :: rest => String.ofList [c] ++ filledText args rest
  | .argument i :: rest => args.getD i "" ++ filledText args rest

end Text

namespace Code

mutual
def text : Code → String
  | raw s _ => s
  | name n => n
  | literal v => v.source
  | call callee args => Text.callText callee (texts args)
  | method target m args => Text.methodText target.precedence (text target) m (texts args)
  | array items => Text.arrayText (texts items)
  | object properties => Text.objectText (namedTexts properties)
  | record fields => Text.recordText (namedTexts fields)
  | exclusion values => Text.exclusionText (values.map Value.source)
  | filled pieces args => Text.filledText (args.map Value.source) pieces
  | success negated test => (if negated then "!" else "") ++ text test ++ ".success"
  | choice cases otherwise => Text.choiceText (caseTexts cases) (text otherwise)
  | check field schema => Text.checkText field (text schema)
  | checks statements => Text.checksText (texts statements)
def texts : List Code → List String
  | [] => []
  | code :: rest => text code :: texts rest
def namedTexts : List (String × Code) → List (String × String)
  | [] => []
  | (n, code) :: rest => (n, text code) :: namedTexts rest
def caseTexts : List (Code × Code) → List (String × String)
  | [] => []
  | (condition, branch) :: rest => (text condition, text branch) :: caseTexts rest
end

/-- What a piece of code looks like: its text, and how tightly it binds. -/
def appearance (code : Code) : String × Precedence := (code.text, code.precedence)

def looksLike (a b : Code) : Bool := a.appearance == b.appearance

theorem looksLike_iff {a b : Code} : a.looksLike b = true ↔ a.appearance = b.appearance :=
  beq_iff_eq

theorem looksLike_of_text_ne {a b : Code} (h : a.text ≠ b.text) : a.looksLike b = false :=
  beq_false_of_ne fun hsame => h (congrArg Prod.fst hsame)

end Code

end Schemata
