/-!
# Paths

A `Path` says how a node is reached from the top of a document. It is written in front of what is
wrong with the node.
-/

namespace Overseer.Yaml

/-- The way from the top of a document to a node. -/
inductive Path where
  | root
  | item (parent : Path) (index : Nat)
  | entry (parent : Path) (key : String)
  /-- The value behind a key that is a reference. -/
  | unnamed (parent : Path)
  deriving DecidableEq, Repr, Inhabited

namespace Path

/-- The text of a path: keys between points, and indices between brackets. -/
def shown : Path → String
  | root => "."
  | item parent index => parent.shown ++ "[" ++ toString index ++ "]"
  | entry root key => key
  | entry parent key => parent.shown ++ "." ++ key
  | unnamed root => "?"
  | unnamed parent => parent.shown ++ ".?"

/-- A problem with the path to it. A path that is written like the top is left out. -/
def inFront (path : Path) (problem : String) : String :=
  if path.shown == "." then problem else path.shown ++ ": " ++ problem

@[simp] theorem inFront_root (problem : String) : root.inFront problem = problem := by
  simp [inFront, shown]

end Path

end Overseer.Yaml
