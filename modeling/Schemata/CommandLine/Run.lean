import Schemata.CommandLine.Arguments
import Schemata.CommandLine.Folder
import Schemata.CommandLine.RuleListing
import Schemata.Compiler
import Schemata.Console.Layout
import Schemata.Console.Plain
/-!
Running the command line.

A run reads its files, and gives the text it prints, the file it writes and its exit code. Reports
and diagnostics are console markup: names of files are part of it as they are, and everything else
is escaped. Wrong arguments end with code 2, everything else that goes wrong with code 1. Faults
that the program does not report in words of its own are kept as what they are.
-/

namespace Schemata.CommandLine

/-- Faults without a report. -/
inductive Crash where
  /-- The options of a file are not an object. -/
  | optionsShape
  | unreadable (fault : ReadFault)
  | name (fault : NameFault)
  | markup (fault : Console.MarkupFault)
  | defect (d : Defect)
deriving DecidableEq, Repr

/-- A file that a run writes. -/
structure WrittenFile where
  name : FileName
  place : Place
  text : String
deriving Repr, Inhabited

structure Outcome where
  exitCode : Nat := 0
  output : String := ""
  diagnostics : String := ""
  written : Option WrittenFile := none
  crash : Option Crash := none
deriving Repr

namespace Outcome

/-- A run that ends without a report. -/
def crashed (crash : Crash) : Outcome := { exitCode := 1, crash := some crash }

/-- A run that ends with a report, in markup, and perhaps a line break behind it. -/
def report (markup ending : String) : Outcome :=
  match Console.print markup with
  | .ok text => { exitCode := 1, output := text ++ ending }
  | .error fault => crashed (.markup fault)

end Outcome

def styled (style markup : String) : String := "[" ++ style ++ "]" ++ markup ++ "[/" ++ style ++ "]"

/-! ## Reading -/

/-- Why a file of options cannot be opened. -/
def openFault (name : FileName) (fault : NameFault) : String :=
  let reason := match fault with
    | .notDirectory => "[Errno 20] Not a directory: "
    | .isDirectory => "[Errno 21] Is a directory: "
    | .tooLong => "[Errno 36] File name too long: "
    | _ => "[Errno 2] No such file or directory: "
  reason ++ Text.spelled name.text

def invalidOptions (detail ending : String) : Outcome :=
  .report (styled "red" ("Invalid options: " ++ Console.escape detail)) ending

/-- The entries of a file of options. What is wrong with its text is not repeated. -/
def optionEntries (folder : Folder) (name : FileName) : Except Outcome Entries :=
  match folder.read name with
  | .ok text =>
    match Value.ofText .binary text with
    | .ok (.map entries) => .ok entries
    | .ok _ => .error (.crashed .optionsShape)
    | .error .syntaxFault => .error (invalidOptions "" "")
    | .error fault => .error (.crashed (.unreadable fault))
  | .error .unnameable => .error (.crashed (.name .unnameable))
  | .error fault => .error (invalidOptions (openFault name fault) "\n")

/-- The options of a run: those of a file, and over them those of the arguments. -/
def runOptions (folder : Folder) (file : Option FileName) (overrides : Overrides) :
    Except Outcome Options := do
  let entries ← match file with
    | some name => optionEntries folder name
    | none => .ok []
  let merged := overrides.entries.foldl (fun es (key, value) => Entries.insert es key value) entries
  match Options.ofEntries merged with
  | .ok options => return options
  | .error _ => throw (invalidOptions "" "")

/-- Checks that there is something under the name of the description. A name that is too long is no
name to look for. -/
def checkThere (folder : Folder) (name : FileName) : Except Outcome Unit :=
  match folder.read name with
  | .ok _ | .error .isDirectory => .ok ()
  | .error .tooLong => .error (.crashed (.name .tooLong))
  | .error _ =>
    .error (.report (styled "red" ("Error: File " ++ name.text ++ " not found.")) "\n")

/-- The description in a file. What is wrong with its text is not repeated. -/
def runDescription (folder : Folder) (name : FileName) : Except Outcome Value :=
  match folder.read name with
  | .ok text =>
    match Value.ofText .exact text with
    | .ok raw => .ok raw
    | .error .syntaxFault =>
      .error (.report (styled "red" ("Error: " ++ name.text ++ " is not valid JSON: ")) "")
    | .error fault => .error (.crashed (.unreadable fault))
  | .error fault => .error (.crashed (.name fault))

/-! ## Compiling -/

/-- The result of compiling a description, or a report of the error. -/
def runCompiler (options : Options) (raw : Value) : Except Outcome Result :=
  match ({ options } : Compiler).compile (.tree raw) with
  | .ok result => .ok result
  | .error (.rejected e) =>
    .error (.report (styled "red" ("Compilation error: " ++ Console.escape e.message)) "\n")
  | .error (.defect d) => .error (.crashed (.defect d))

def diagnosticStyle (d : Diagnostic) : String :=
  match d.level with
  | .warning => "yellow"
  | .info => "dim"

/-- The lines of diagnostics, added to what a run has printed. -/
def printDiagnostics (outcome : Outcome) : List Diagnostic → Outcome
  | [] => outcome
  | d :: rest =>
    match Console.print (styled (diagnosticStyle d) (Console.escape d.render)) with
    | .ok line =>
      printDiagnostics { outcome with diagnostics := outcome.diagnostics ++ line ++ "\n" } rest
    | .error fault => { outcome with exitCode := 1, crash := some (.markup fault) }

def writeCode (folder : Folder) (name : FileName) (code : String) : Outcome :=
  match folder.target name with
  | .error fault => .crashed (.name fault)
  | .ok place =>
    let written := some ⟨name, place, Console.filed (code ++ "\n")⟩
    match Console.print (styled "green" ("Compiled to " ++ name.text)) with
    | .ok text => { output := text ++ "\n", written := written }
    | .error fault => { Outcome.crashed (.markup fault) with written := written }

/-- Compiles a file and prints the code, or writes it to another file. -/
def runCompile (folder : Folder) (schema : FileName) (out optionsFile : Option FileName)
    (overrides : Overrides) : Except Outcome Outcome := do
  checkThere folder schema
  let options ← runOptions folder optionsFile overrides
  let raw ← runDescription folder schema
  let result ← runCompiler options raw
  let outcome : Outcome := match out with
    | none => { output := Console.piped (result.code ++ "\n") }
    | some name => writeCode folder name result.code
  if outcome.crash.isSome then return outcome
  else return printDiagnostics outcome result.diagnostics

/-- Runs the command line with some arguments. -/
def run (folder : Folder) (arguments : List String) : Outcome :=
  match readArguments arguments with
  | none => { exitCode := 2 }
  | some .help => {}
  | some (.rules kind) => { output := ruleListing kind }
  | some (.compile schema out optionsFile overrides) =>
    let named (name : Option String) : Option FileName := name.map FileName.ofText
    match runCompile folder (.ofText schema) (named out) (named optionsFile) overrides with
    | .ok outcome => outcome
    | .error outcome => outcome

/-- The names of files in the arguments of a run. -/
def mentioned (arguments : List String) : List FileName :=
  match readArguments arguments with
  | some (.compile schema out optionsFile _) =>
    (schema :: optionsFile.toList ++ out.toList).map FileName.ofText
  | _ => []

end Schemata.CommandLine
