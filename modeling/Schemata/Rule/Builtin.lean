import Schemata.Rule.Book
/-!
The rules that are supported from the start.
-/

namespace Schemata.Rulebook

def stringRules : List (String × RuleForm) :=
  [("min", .method "min" 1), ("max", .method "max" 1), ("length", .method "length" 1),
    ("email", .format "email"), ("uri", .format "url"), ("guid", .format "uuid"),
    ("uuid", .format "uuid"), ("isoDate", .format "datetime"), ("base64", .format "base64"),
    ("pattern", .pattern), ("alphanum", .regex "/^[a-zA-Z0-9]+$/"), ("token", .regex "/^\\w+$/"),
    ("hex", .hex), ("trim", .trim), ("case", .letterCase), ("ip", .ip)]

def numberRules : List (String × RuleForm) :=
  [("integer", .method "int" 0), ("min", .method "min" 1), ("max", .method "max" 1),
    ("greater", .method "gt" 1), ("less", .method "lt" 1), ("multiple", .method "multipleOf" 1),
    ("positive", .method "positive" 0), ("negative", .method "negative" 0), ("sign", .sign),
    ("port", .port)]

def dateRules : List (String × RuleForm) := [("min", .dateBound "min"), ("max", .dateBound "max")]

def arrayRules : List (String × RuleForm) :=
  [("min", .method "min" 1), ("max", .method "max" 1), ("length", .method "length" 1),
    ("unique", .refinement "(items) => new Set(items).size === items.length"
      "Array items must be unique" 0)]

def binaryRules : List (String × RuleForm) :=
  [("min", .refinement "(value) => value.length >= \x7b0\x7d"
      "Must be at least \x7b0\x7d bytes" 1),
    ("max", .refinement "(value) => value.length <= \x7b0\x7d"
      "Must be at most \x7b0\x7d bytes" 1),
    ("length", .refinement "(value) => value.length === \x7b0\x7d"
      "Must be exactly \x7b0\x7d bytes" 1)]

/-- The table of all rules that are supported from the start. -/
def builtin {ε : Type} [Emitter ε] : Rulebook ε :=
  let entries (kind : Kind) (rules : List (String × RuleForm)) : List (RuleEntry ε) :=
    rules.map fun (name, form) => ⟨kind, name, some (Emitter.form form)⟩
  { entries := entries .string stringRules ++ entries .number numberRules
      ++ entries .date dateRules ++ entries .array arrayRules ++ entries .binary binaryRules }

end Schemata.Rulebook
