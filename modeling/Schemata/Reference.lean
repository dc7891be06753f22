import Schemata.Failure
import Schemata.Text.Blank
import Schemata.Text.Layout
import Schemata.Text.Quoted
/-!
References to other values, as conditionals use them.

A reference is a list of segments and a starting point: a number of levels above the value itself,
or one of three fixed places. Its text is a prefix for the starting point and the segments with dots
between them. Inside a check, a reference to a sibling is an access to the enclosing object.
-/

namespace Schemata

/-- Where a reference starts. -/
inductive Scope where
  /-- At an ancestor of the value. -/
  | value
  /-- In the context given to validation, written `$`. -/
  | context
  /-- At the root value, written `/`. -/
  | root
  /-- In the error that is being reported, written `#`. -/
  | inner
deriving DecidableEq, Repr, Inhabited

def Scope.name : Scope → String
  | value => "value"
  | context => "global"
  | root => "root"
  | inner => "local"

/-- A reference: where it starts and the segments to follow from there. -/
structure Reference where
  segments : List String
  ancestor : Int := 1
  scope : Scope := .value
deriving DecidableEq, Repr, Inhabited

namespace Reference

/-- The prefix of a reference: siblings have none, other ancestors one dot more than their level. -/
def marker (r : Reference) : String :=
  match r.scope with
  | .context => "$"
  | .root => "/"
  | .inner => "#"
  | .value => if r.ancestor = 1 then "" else Text.copies (r.ancestor + 1).toNat '.'

def display (r : Reference) : String := r.marker ++ Text.join "." r.segments

/-- Whether a reference has a text: the number of its dots has to fit a word of 64 bits. -/
def isShown (r : Reference) : Bool :=
  r.scope != .value ||
    (-0x8000000000000000 ≤ r.ancestor + 1 && r.ancestor + 1 < 0x8000000000000000)

/-! ## Reading the text of a reference -/

/-- Whether a text can be a segment: not empty, and not starting with a mark or a blank. -/
def isSegment : List Char → Bool
  | [] => false
  | c :: _ => !(c == '.' || c == '$' || c == '/' || c == '#' || Text.isBlank c)

/-- Starting point and rest of the text of a reference. -/
def scanMarker (cs : List Char) : (Scope × Int) × List Char :=
  match cs with
  | '$' :: rest => ((.context, 0), rest)
  | '/' :: rest => ((.root, 0), rest)
  | '#' :: rest => ((.inner, 0), rest)
  | '.' :: _ =>
    ((.value, (cs.takeWhile (· == '.')).length - (1 : Int)), cs.dropWhile (· == '.'))
  | cs => ((.value, 1), cs)

def ofChars? (cs : List Char) : Option Reference :=
  let ((scope, ancestor), rest) := scanMarker cs
  let segments := Text.cutAt '.' rest
  if segments.all isSegment then some ⟨segments.map String.ofList, ancestor, scope⟩ else none

/-- A text without the word `ref:` that may stand in front of it. -/
def withoutTag (key : String) : String :=
  match key.toList with
  | 'r' :: 'e' :: 'f' :: ':' :: rest => String.ofList rest
  | _ => key

def parse (key : String) (path : Path) : Checked Reference :=
  let body := withoutTag key
  match ofChars? body.toList with
  | some r => .ok r
  | none => malformed (.referenceText body) path

/-! ## Access to the referenced value -/

/-- Access to one property: the first one directly, the others only if there is an object. -/
def accessor (first : Bool) (segment : List CodePoint) : String :=
  match Text.identifierOf? segment with
  | some name => (if first then "." else "?.") ++ name
  | none => (if first then "" else "?.") ++ "[" ++ Text.quotedPoints segment ++ "]"

/-- Access to a property path inside the object called `value`. -/
def accessPath : List (List CodePoint) → String
  | [] => "value"
  | segment :: segments =>
    "value" ++ accessor true segment ++ Text.concat (segments.map (accessor false))

@[inherit_doc accessPath]
def accessChain (segments : List String) : String := accessPath (segments.map Text.points)

/-- The expression that reads a reference inside a check of the property `field`. Only the value
itself and its siblings can be read there. The error for other references shows their text. -/
def access (r : Reference) (field : String) (path : Path) : Written String :=
  if r.scope = .value ∧ r.ancestor = 1 then .ok (accessChain r.segments)
  else if r.scope = .value ∧ r.ancestor = 0 then .ok (accessChain (field :: r.segments))
  else if r.isShown then Checked.toWritten (unsupported (.conditional (.outside r.display)) path)
  else .error (.defect .uncountedDots)

end Reference

end Schemata
