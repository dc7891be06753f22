/-!
Things by name, in order.

Setting a name that is there keeps its place and replaces the thing under it; any other name is
added at the end. A list that is built by setting names therefore holds each name once.
-/

namespace Schemata

/-- Things by name, in order. -/
abbrev Named (α : Type) := List (String × α)

/-- Sets the thing under a name: in place if the name is there, at the end otherwise. -/
def Named.put {α : Type} : Named α → String → α → Named α
  | [], name, a => [(name, a)]
  | (n, b) :: rest, name, a => if n = name then (n, a) :: rest else (n, b) :: put rest name a

end Schemata
