import Overseer.Yaml.Event

/-!
# From events to nodes

The events of a document as a tree. A reference is a number under which the anchored node is
found in a table, because the reference may stand within that very node. Where the events of a
document break off, the tree ends in a broken node, so that a reader of the tree comes to what is
wrong with the nodes before it first.

The number of an anchor is how many names of anchors there were before it. A name that is used
again therefore shares its new number with the next new name, and of the nodes with one number
the last in the document counts, even for a reference in front of it.
-/

namespace Overseer.Yaml

/-- A part of a document. The parts of a mapping are its keys and values in turn. -/
inductive Node where
  | scalar (mark : Mark) (tag : Option Tag) (text : String) (style : Style)
  | sequence (mark : Mark) (tag : Option Tag) (items : List Node)
  | mapping (mark : Mark) (tag : Option Tag) (parts : List Node)
  | reference (mark : Mark) (anchor : Nat)
  | broken
  deriving Inhabited, Repr

namespace Node

def tag? : Node → Option Tag
  | scalar _ tag _ _ => tag
  | sequence _ tag _ => tag
  | mapping _ tag _ => tag
  | _ => none

/-- The name that the document itself gives a node by a tag. -/
def ownName? (n : Node) : Option String := n.tag?.bind Tag.own?

def isReference : Node → Bool
  | reference .. => true
  | _ => false

end Node

/-- A document as a tree. -/
structure Tree where
  /-- The node, if there is any. -/
  root : Option Node := none
  /-- The anchored nodes by the number of their first event. -/
  anchored : List (Nat × Node) := []
  /-- The numbers of the anchors with the first event of their nodes, the last in the document
  first. -/
  places : List (Nat × Nat) := []
  /-- Why the tree is broken. -/
  fault : Option Error := none
  /-- The number of events. -/
  size : Nat := 0
  deriving Repr

namespace Tree

/-- A collection that has not ended. -/
structure Open where
  mapping : Bool
  mark : Mark
  tag : Option Tag
  /-- The number of its first event, if it has an anchor. -/
  place : Option Nat
  /-- Its parts so far, the last one first. -/
  parts : List Node := []
  deriving Repr

/-- A tree that is being built. -/
structure Builder where
  tree : Tree := {}
  /-- The collections that have not ended, the innermost first. -/
  opened : List Open := []
  /-- The names of anchors with their numbers. -/
  names : List (String × Nat) := []
  deriving Repr

namespace Builder

/-- Counts an event. -/
def count (b : Builder) : Builder := { b with tree := { b.tree with size := b.tree.size + 1 } }

/-- Gives the anchor of the next event a number. -/
def name (b : Builder) (anchor : Option String) : Option Nat × Builder :=
  match anchor with
  | none => (none, b)
  | some a =>
    let number := b.names.length
    (some b.tree.size, { b with
      names := (a, number) :: b.names.filter (·.1 != a)
      tree := { b.tree with places := (number, b.tree.size) :: b.tree.places } })

/-- Puts a finished node where it belongs. -/
def add (b : Builder) (place : Option Nat) (n : Node) : Builder :=
  let tree := match place with
    | none => b.tree
    | some i => { b.tree with anchored := (i, n) :: b.tree.anchored }
  match b.opened with
  | [] => { b with tree := { tree with root := some n } }
  | o :: outer => { b with tree, opened := { o with parts := n :: o.parts } :: outer }

def start (b : Builder) (mapping : Bool) (mark : Mark) (anchor : Option String)
    (tag : Option Tag) : Builder :=
  let (place, b) := b.name anchor
  { b with opened := { mapping, mark, tag, place } :: b.opened }

/-- Ends the innermost collection. -/
def stop (b : Builder) : Builder :=
  match b.opened with
  | [] => b
  | o :: outer =>
    let parts := o.parts.reverse
    let node := if o.mapping then Node.mapping o.mark o.tag parts else .sequence o.mark o.tag parts
    { b with opened := outer }.add o.place node

/-- Breaks the tree off. -/
def breakOff (b : Builder) (e : Option Error) : Tree :=
  if b.opened.isEmpty then { b.tree with fault := e }
  else
    let b := b.add none .broken
    { (b.opened.foldl (fun b _ => b.stop) b).tree with fault := e }

/-- The tree of the events that are left. -/
def build (fault : Option Error) : List Placed → Builder → Tree
  | [], b => b.breakOff fault
  | p :: ps, b =>
    match p.event with
    | .scalar anchor tag text style =>
      let (place, b) := b.name anchor
      build fault ps (b.add place (.scalar p.mark tag text style)).count
    | .sequenceStart anchor tag => build fault ps (b.start false p.mark anchor tag).count
    | .mappingStart anchor tag => build fault ps (b.start true p.mark anchor tag).count
    | .sequenceEnd => build fault ps b.stop.count
    | .mappingEnd => build fault ps b.stop.count
    | .reference name =>
      match b.names.find? (·.1 == name) with
      | some a => build fault ps (b.add none (.reference p.mark a.2)).count
      | none => b.breakOff (some { problem := "unknown anchor", mark := p.mark })

end Builder

/-- The tree of a document. -/
def ofDocument (d : Document) : Tree := Builder.build d.fault d.events {}

/-- The node that a node stands for. -/
def resolve (t : Tree) : Node → Node
  | .reference _ number =>
    let place := t.places.find? (·.1 == number)
    let found := place.bind fun p => t.anchored.find? (·.1 == p.2)
    (found.map Prod.snd).getD .broken
  | n => n

end Tree

end Overseer.Yaml
