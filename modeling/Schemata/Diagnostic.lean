import Schemata.Path
/-!
Notes about what the generated code only approximates.
-/

namespace Schemata

inductive Level where
  | info
  | warning
deriving DecidableEq, Repr, Inhabited

def Level.name : Level → String
  | info => "info"
  | warning => "warning"

/-- What there is to say about the generated code. -/
inductive Notice where
  /-- A label is not part of the code. -/
  | labelDropped (label : String)
  /-- Rules beside a list of values are not part of the code. -/
  | rulesDropped
  /-- A conditional is checked after its property, not before. -/
  | conditionalApproximated (reference field : String)
deriving DecidableEq, Repr, Inhabited

namespace Notice

/-- Only a lost label changes nothing about validation. -/
def level : Notice → Level
  | labelDropped _ => .info
  | rulesDropped => .warning
  | conditionalApproximated _ _ => .warning

def message : Notice → String
  | labelDropped label => "label '" ++ label ++ "' has no Zod counterpart and is dropped"
  | rulesDropped => "rules are not applied because the value is restricted to a literal set"
  | conditionalApproximated reference field =>
    "conditional on '" ++ reference ++ "' for '" ++ field ++ "' is enforced by a superRefine "
      ++ "check; Joi's short-circuit evaluation is approximated"

end Notice

/-- A notice and the part of the description it is about. -/
structure Diagnostic where
  notice : Notice
  path : Path
deriving DecidableEq, Repr, Inhabited

namespace Diagnostic

def level (d : Diagnostic) : Level := d.notice.level

def message (d : Diagnostic) : String := d.notice.message

/-- A diagnostic on a line of its own. -/
def render (d : Diagnostic) : String :=
  "[" ++ d.level.name ++ "] " ++ d.path.label ++ ": " ++ d.message

end Diagnostic

end Schemata
