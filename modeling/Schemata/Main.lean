import Schemata.CommandLine.Run
/-!
The command line program: looks at the files that its arguments name, runs, prints, and writes.
-/

namespace Schemata.CommandLine

/-- The name of a place on disk. -/
def Place.diskName (p : Place) : String :=
  let path := Text.join "/" (List.replicate p.above ".." ++ p.names)
  if p.absolute then "/" ++ path else if path = "" then "." else path

/-- What stands at a place on disk. -/
def lookUp (p : Place) : IO Entry := do
  try
    let text ← IO.FS.readFile p.diskName
    return .file text
  catch
    | .inappropriateType .. => return .directory
    | _ => return .missing

/-- What stands at some places on disk. -/
def known (places : List Place) : IO Folder :=
  places.foldlM (fun folder p => do
    match ← lookUp p with
    | .file text => return { folder with files := (p, text) :: folder.files }
    | .directory => return { folder with directories := p :: folder.directories }
    | .missing => return folder) {}

/-- How the program is called. -/
def usage : String :=
  "usage: compile SCHEMA_FILE [OPTIONS] | rules [--type KIND]\n"

/-- Carries out what a run came to. -/
def perform (outcome : Outcome) : IO UInt32 := do
  match outcome.written with
  | some file =>
    IO.FS.createDirAll file.name.parent.text
    IO.FS.writeFile file.place.diskName file.text
  | none => pure ()
  IO.print outcome.output
  IO.eprint outcome.diagnostics
  if outcome.exitCode == 2 then IO.eprint usage
  if outcome.crash.isSome then IO.eprint "The run ended with a fault that has no report.\n"
  return outcome.exitCode.toUInt32

end Schemata.CommandLine

open Schemata.CommandLine in
def main (arguments : List String) : IO UInt32 := do
  let folder ← known ((mentioned arguments).flatMap Folder.places)
  perform (run folder arguments)
