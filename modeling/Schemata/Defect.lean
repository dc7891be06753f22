/-!
What writing code can come upon without an error to report.

Checks rule out most of what cannot be written, and report it as an error. A defect is what no check has
ruled out: it says something about the rules, the templates or the writing of numbers, and nothing about
the description.
-/

namespace Schemata

/-- Kinds of values that have no literal. -/
inductive Unwritable where
  | byteString
  | keyNotText
deriving DecidableEq, Repr

inductive Defect where
  /-- The versions of an address are a single number or a boolean, which cannot be counted. -/
  | uncountedVersions
  /-- The versions of an address are one entry that is not the first of a list. -/
  | unorderedVersions
  /-- A template asks for an argument that the rule does not have. -/
  | missingArgument
  /-- A template cannot be read. -/
  | brokenTemplate
  /-- The dots in front of a reference are a number of dots that no text is made of. -/
  | uncountedDots
  | unwritable (u : Unwritable)
  /-- An integer has more digits than are turned into text. -/
  | longInteger
deriving DecidableEq, Repr

end Schemata
