import Schemata.Options
import Schemata.Text.Digit
/-!
The arguments of the command line.

Options and other arguments may be mixed. A long option takes its value from behind an equals sign
or from the next argument; short options may be joined, and one that takes a value takes the rest of
the argument if there is any. Of an option given more than once the last one counts. Everything
behind two dashes is no option.
-/

namespace Schemata.CommandLine

/-- The options that a command knows. -/
structure OptionNames where
  flags : List String
  valued : List String
  shortFlags : List Char := []
  shortValued : List Char := []
deriving Repr, Inhabited

/-- An option as it was given. -/
inductive Given where
  | flag (name : String)
  | value (name content : String)
deriving DecidableEq, Repr, Inhabited

/-- What one argument is, if it does not belong to the option before it. -/
inductive Token where
  | plain
  /-- The end of the options. -/
  | stop
  /-- Options, the last of which may still need its value. -/
  | options (given : List Given) (pending : Option String)
  | unknown
deriving DecidableEq, Repr, Inhabited

/-- A text up to the first equals sign, and what stands behind it. -/
def splitAssignment (cs : List Char) : String × Option String :=
  match cs.dropWhile (· != '=') with
  | [] => (String.ofList cs, none)
  | _ :: content => (String.ofList (cs.takeWhile (· != '=')), some (String.ofList content))

/-- Short options joined in one argument. -/
def cluster (names : OptionNames) : List Char → List Given → Token
  | [], given => .options given none
  | c :: rest, given =>
    let name := String.ofList ['-', c]
    if names.shortFlags.contains c then cluster names rest (given ++ [.flag name])
    else if names.shortValued.contains c then
      if rest.isEmpty then .options given (some name)
      else .options (given ++ [.value name (String.ofList rest)]) none
    else .unknown

/-- A long option, or a cluster of short ones. -/
def optionToken (names : OptionNames) (cs : List Char) : Token :=
  let (name, content) := splitAssignment cs
  if names.flags.contains name then
    if content.isSome then .unknown else .options [.flag name] none
  else if names.valued.contains name then
    match content with
    | some content => .options [.value name content] none
    | none => .options [] (some name)
  else
    match cs with
    | '-' :: '-' :: _ => .unknown
    | _ :: rest => cluster names rest []
    | [] => .unknown

/-- What one argument is. -/
def tokenOf (names : OptionNames) (argument : String) : Token :=
  match argument.toList with
  | ['-'] => .plain
  | ['-', '-'] => .stop
  | '-' :: rest => optionToken names ('-' :: rest)
  | _ => .plain

/-- The options and the other arguments of a command; none if they cannot be told apart. The name of
an option that still needs its value is `pending`. -/
def scan (names : OptionNames) : Option String → List String → Option (List Given × List String)
  | none, [] => some ([], [])
  | some _, [] => none
  | some name, content :: rest => do
    let (given, plain) ← scan names none rest
    return (.value name content :: given, plain)
  | none, argument :: rest =>
    match tokenOf names argument with
    | .unknown => none
    | .stop => some ([], rest)
    | .plain => do
      let (given, plain) ← scan names none rest
      return (given, argument :: plain)
    | .options found pending => do
      let (given, plain) ← scan names pending rest
      return (found ++ given, plain)

/-- The last value given for an option, under one of its names. -/
def lastValue (given : List Given) (names : List String) : Option String :=
  given.foldl (fun last g => match g with
    | .value name content => if names.contains name then some content else last
    | .flag _ => last) none

/-- The last of two opposite flags that was given. -/
def lastFlag (given : List Given) (on off : String) : Option Bool :=
  given.foldl (fun last g =>
    if g = .flag on then some true else if g = .flag off then some false else last) none

/-- Whether a flag was given under one of its names. -/
def hasFlag (given : List Given) (names : List String) : Bool :=
  given.any fun g => names.any fun name => g = .flag name

/-- An integer on the command line: digits of any script with single underscores between them, with
or without a sign and blanks around them. -/
def integer? (s : String) : Option Int := do
  let (negative, cs) := Decimal.scanSign ((Text.trimBlanks s.toList).map Text.plainDigit)
  let ds ← Options.plainDigits? cs
  if 4300 < ds.length then none
  let n : Int := Decimal.valueOf ds
  return if negative then -n else n

/-- Options set on the command line, which win over those of a file. -/
structure Overrides where
  asModule : Option Bool := none
  typeAliases : Option Bool := none
  defaultPresence : Option Presence := none
  refinements : Option Bool := none
  strip : Option Bool := none
  strictObjects : Option Bool := none
  maxDepth : Option Int := none
deriving DecidableEq, Repr, Inhabited

def Overrides.entries (o : Overrides) : Entries :=
  let entry (name : String) (value : Option Value) : Entries :=
    (value.map fun v => (Value.str name, v)).toList
  entry "module" (o.asModule.map .bool) ++ entry "type_aliases" (o.typeAliases.map .bool)
    ++ entry "default_presence" (o.defaultPresence.map fun p => .str p.name)
    ++ entry "refinements" (o.refinements.map .bool) ++ entry "strip" (o.strip.map .bool)
    ++ entry "strict_objects" (o.strictObjects.map .bool)
    ++ entry "max_depth" (o.maxDepth.map .int)

/-- What is asked of the command line. -/
inductive Invocation where
  | compile (schema : String) (out optionsFile : Option String) (overrides : Overrides)
  | rules (kind : Option Kind)
  | help
deriving DecidableEq, Repr, Inhabited

def compileNames : OptionNames :=
  { flags :=
      ["--module", "--expression", "--type-aliases", "--no-type-aliases", "--refinements",
        "--no-refinements", "--strip", "--no-strip", "--strict-objects", "--no-strict-objects",
        "--verbose", "--help"]
    valued := ["--out", "--default-presence", "--max-depth", "--options"]
    shortFlags := ['v']
    shortValued := ['o'] }

def rulesNames : OptionNames :=
  { flags := ["--help"], valued := ["--type"], shortValued := ['t'] }

/-- Reads a value that may be missing, but not wrong. -/
def optional {α β : Type} (read : α → Option β) : Option α → Option (Option β)
  | none => some none
  | some a => (read a).map some

/-- Reads the arguments of the command that compiles a file. -/
def readCompile (arguments : List String) : Option Invocation := do
  let (given, plain) ← scan compileNames none arguments
  if hasFlag given ["--help"] then return .help
  let defaultPresence ← optional Presence.ofName? (lastValue given ["--default-presence"])
  let maxDepth ← optional integer? (lastValue given ["--max-depth"])
  let overrides : Overrides :=
    { asModule := lastFlag given "--module" "--expression"
      typeAliases := lastFlag given "--type-aliases" "--no-type-aliases"
      defaultPresence := defaultPresence
      refinements := lastFlag given "--refinements" "--no-refinements"
      strip := lastFlag given "--strip" "--no-strip"
      strictObjects := lastFlag given "--strict-objects" "--no-strict-objects"
      maxDepth := maxDepth }
  match plain with
  | [schema] =>
    return .compile schema (lastValue given ["--out", "-o"]) (lastValue given ["--options"])
      overrides
  | _ => none

/-- Reads the arguments of the command that lists the rules. -/
def readRules (arguments : List String) : Option Invocation := do
  let (given, plain) ← scan rulesNames none arguments
  if hasFlag given ["--help"] then return .help
  let kind ← optional Kind.ofName? (lastValue given ["--type", "-t"])
  match plain with
  | [] => return .rules kind
  | _ => none

def readCommand : List String → Option Invocation
  | "compile" :: arguments => readCompile arguments
  | "rules" :: arguments => readRules arguments
  | _ => none

/-- Reads the arguments of the command line; none if they cannot be understood. -/
def readArguments : List String → Option Invocation
  | "--" :: arguments => readCommand arguments
  | "--help" :: _ => some .help
  | arguments => readCommand arguments

end Schemata.CommandLine
