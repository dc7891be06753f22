import Schemata.Text.Layout
/-!
Files and directories by name.

A name is a list of components between slashes. Empty components and single dots say nothing and are
left out. A name is followed component by component, from the folder the program runs in or from the
root, and two dots lead to the directory above; every place on the way has to be a directory.
-/

namespace Schemata.CommandLine

structure FileName where
  /-- The slashes in front: none, one, or exactly two. -/
  root : String
  parts : List String
deriving DecidableEq, Repr, Inhabited

namespace FileName

/-- The slashes in front of a name. More than two count as one. -/
def rootOf (cs : List Char) : String :=
  match (cs.takeWhile (· == '/')).length with
  | 0 => ""
  | 2 => "//"
  | _ => "/"

def ofText (name : String) : FileName :=
  { root := rootOf name.toList
    parts := ((Text.cutAt '/' name.toList).map String.ofList).filter fun part =>
      part != "" && part != "." }

def text (n : FileName) : String :=
  let path := n.root ++ Text.join "/" n.parts
  if path = "" then "." else path

/-- The name without its last component. -/
def parent (n : FileName) : FileName := { n with parts := n.parts.dropLast }

end FileName

/-- A place in the tree of files. -/
structure Place where
  /-- Whether the place is told from the root, and not from the folder the program runs in. -/
  absolute : Bool := false
  /-- How many levels above the folder the names start. -/
  above : Nat := 0
  names : List String := []
deriving DecidableEq, Repr, Inhabited

namespace Place

/-- The place one level up. Above the root there is the root. -/
def up (p : Place) : Place :=
  if !p.names.isEmpty then { p with names := p.names.dropLast }
  else if p.absolute then p
  else { p with above := p.above + 1 }

/-- The place of an entry of a directory. -/
def down (p : Place) (name : String) : Place := { p with names := p.names ++ [name] }

/-- Where names start: at the root, or at the folder. -/
def start (name : FileName) : Place := { absolute := name.root != "" }

/-- The path of a place from the folder, if the place is inside it. -/
def inside? (p : Place) : Option String :=
  if p.absolute || p.above != 0 then none else some (Text.join "/" p.names)

/-- Whether a place is a directory on the way to another one. -/
def leadsTo (p q : Place) : Bool :=
  p.absolute == q.absolute && p.above == q.above && p.names.isPrefixOf q.names

end Place

/-- What stands at a place. -/
inductive Entry where
  | file (text : String)
  | directory
  | missing
deriving DecidableEq, Repr, Inhabited

/-- Why a name leads nowhere, or not where it should. -/
inductive NameFault where
  | missing
  /-- A component that is followed by another one is no directory. -/
  | notDirectory
  | isDirectory
  /-- A directory is to be made where a file is. -/
  | fileInTheWay
  | tooLong
  /-- The name holds a character that no name can have. -/
  | unnameable
deriving DecidableEq, Repr, Inhabited

/-- Files and directories that are known to exist. Directories on the way to them exist as well. -/
structure Folder where
  files : List (Place × String) := []
  directories : List Place := []
deriving Repr, Inhabited

namespace Folder

/-- A folder that holds some files, by their names. -/
def ofFiles (files : List (String × String)) : Folder :=
  { files := files.map fun (name, text) => ({ names := (FileName.ofText name).parts }, text) }

def entry (f : Folder) (p : Place) : Entry :=
  match f.files.lookup p with
  | some text => .file text
  | none =>
    if p.names.isEmpty || (f.files.map Prod.fst ++ f.directories).any p.leadsTo then .directory
    else .missing

/-- The largest number of bytes in a component. -/
def componentLimit : Nat := 255

/-- The largest number of bytes in a name. -/
def nameLimit : Nat := 4095

/-- The place behind one component, from a directory. -/
def step (p : Place) (part : String) : Except NameFault Place :=
  if part = ".." then .ok p.up
  else if componentLimit < part.utf8ByteSize then .error .tooLong
  else .ok (p.down part)

/-- Follows components from a place. -/
def follow (f : Folder) (p : Place) : List String → Except NameFault Place
  | [] => .ok p
  | part :: rest =>
    match f.entry p with
    | .missing => .error .missing
    | .file _ => .error .notDirectory
    | .directory =>
      match step p part with
      | .ok next => follow f next rest
      | .error fault => .error fault

def find (f : Folder) (name : FileName) : Except NameFault Place :=
  if name.text.toList.contains '\x00' then .error .unnameable
  else if nameLimit < name.text.utf8ByteSize then .error .tooLong
  else f.follow (Place.start name) name.parts

def read (f : Folder) (name : FileName) : Except NameFault String :=
  match f.find name with
  | .error fault => .error fault
  | .ok p =>
    match f.entry p with
    | .file text => .ok text
    | .directory => .error .isDirectory
    | .missing => .error .missing

/-- Makes a directory whose own directory is there. -/
def makeOne (f : Folder) (name : FileName) : Except NameFault Folder :=
  match f.find name with
  | .error fault => .error fault
  | .ok p =>
    match f.entry p with
    | .directory => .ok f
    | .file _ => .error .fileInTheWay
    | .missing => .ok { f with directories := p :: f.directories }

/-- Makes a directory, given by its components in reverse, and the missing ones on the way to it. -/
def makeParts (f : Folder) (root : String) : List String → Except NameFault Folder
  | [] => makeOne f ⟨root, []⟩
  | part :: before =>
    match makeOne f ⟨root, (part :: before).reverse⟩ with
    | .error .missing => do
      let f ← makeParts f root before
      makeOne f ⟨root, (part :: before).reverse⟩
    | outcome => outcome

/-- Makes a directory and the missing ones on the way to it. -/
def make (f : Folder) (name : FileName) : Except NameFault Folder :=
  makeParts f name.root name.parts.reverse

/-- The place where a file is written, after the directories for it are made. -/
def target (f : Folder) (name : FileName) : Except NameFault Place := do
  let f ← f.make name.parent
  let p ← f.find name
  match f.entry p with
  | .directory => .error .isDirectory
  | _ => return p

/-- The places that a name passes. -/
def places (name : FileName) : List Place :=
  (name.parts.foldl (fun (passed : List Place) part =>
    let p := passed.headD (Place.start name)
    (if part = ".." then p.up else p.down part) :: passed) [Place.start name]).reverse

end Folder

end Schemata.CommandLine
