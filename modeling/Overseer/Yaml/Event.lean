import Overseer.Yaml.Lexeme

/-!
# From lexemes to events

An `Event` is a scalar, a reference to an anchor, or the start or end of a collection. `events`
gives those of the first document of a text, and says whether another document follows.

The grammar is followed by a machine with a stack: its state says what may come next, and the
stack holds the states to go back to when a collection ends. What is missing where YAML allows it
to be missing is an empty plain scalar.
-/

namespace Overseer.Yaml

/-- What a document is made of. -/
inductive Event where
  | reference (name : String)
  | scalar (anchor : Option String) (tag : Option Tag) (text : String) (style : Style)
  | sequenceStart (anchor : Option String) (tag : Option Tag)
  | sequenceEnd
  | mappingStart (anchor : Option String) (tag : Option Tag)
  | mappingEnd
  deriving DecidableEq, Repr, Inhabited

/-- An event and where it begins. -/
structure Placed where
  event : Event
  mark : Mark
  deriving DecidableEq, Repr, Inhabited

/-- What may come next. -/
inductive Expected where
  /-- A document that needs no mark in front. -/
  | firstDocument
  | nextDocument
  /-- What stands behind the mark of a document. -/
  | content
  | documentEnd
  | blockNode
  | blockEntry (first : Bool)
  /-- An entry of a sequence that is not indented below the key of a mapping. -/
  | indentlessEntry
  | blockKey (first : Bool)
  | blockValue
  | flowEntry (first : Bool)
  /-- The parts of a single pair within a flow sequence. -/
  | pairKey
  | pairValue
  | pairEnd
  | flowKey (first : Bool)
  | flowValue
  /-- The value of a key in a flow mapping that has no key indicator. -/
  | emptyFlowValue
  | nothing
  deriving DecidableEq, Repr, Inhabited

/-- How far the lexemes of a text have been read. -/
structure Machine where
  lexemes : List Lexeme
  /-- Why there are no more of them. -/
  fault : Option Error
  expected : Expected := .firstDocument
  /-- What to expect when the node that is being read has ended. -/
  later : List Expected := []
  /-- Where the open collections began. -/
  starts : List Mark := []
  /-- What the handles of tags stand for. -/
  handles : List (String × List UInt8) := []
  deriving Repr

/-- What a step of the machine finds. -/
inductive Finding where
  | documentStart
  | documentEnd
  | streamEnd
  | node (p : Placed)
  deriving DecidableEq, Repr

/-- A computation that reads lexemes. -/
abbrev Parse (α : Type) := StateT Machine (Except Error) α

namespace Parse

/-- The next lexeme, which stays where it is. -/
def peek : Parse Lexeme := do
  let m ← get
  match m.lexemes, m.fault with
  | l :: _, _ => return l
  | [], some e => throw e
  | [], none => throw { problem := "did not find expected <stream-end>" }

def token : Parse Token := do return (← peek).token

/-- Takes the next lexeme. -/
def skip : Parse Unit := modify fun m => { m with lexemes := m.lexemes.tail }

def fail {α : Type} (problem : String) (mark : Mark) : Parse α := throw { problem, mark }

def expect (e : Expected) : Parse Unit := modify fun m => { m with expected := e }

/-- Says what to expect after the next node. -/
def afterwards (e : Expected) : Parse Unit := modify fun m => { m with later := e :: m.later }

/-- Goes back to what is expected after a node. -/
def resume : Parse Unit :=
  modify fun m => { m with expected := m.later.headD .nothing, later := m.later.tail }

/-- Notes where a collection began. -/
def enter (m : Mark) : Parse Unit := modify fun s => { s with starts := m :: s.starts }

def leave : Parse Unit := modify fun m => { m with starts := m.starts.tail }

/-- A lexeme that the innermost collection has no place for. -/
def misplaced {α : Type} (activity problem : String) : Parse α := do
  let l ← peek
  let start := (← get).starts.headD {}
  throw { problem, mark := l.start, context := some (activity, start) }

def found (e : Event) (mark : Mark) : Parse Finding := return .node ⟨e, mark⟩

/-- A scalar that is missing. -/
def missing (mark : Mark) : Parse Finding := found (.scalar none none "" .plain) mark

/-! ## Documents -/

def addHandle (handle : String) (expansion : List UInt8) (mark : Mark) : Parse Unit := do
  if (← get).handles.any (·.1 == handle) then fail "found duplicate %TAG directive" mark
  modify fun m => { m with handles := m.handles ++ [(handle, expansion)] }

/-- The directives in front of a document. The flag says whether the version has been given. -/
def directives : Nat → Bool → Parse Unit
  | 0, _ => return ()
  | n + 1, versioned => do
    let l ← peek
    match l.token with
    | .version major minor =>
      if versioned then fail "found duplicate %YAML directive" l.start
      if major != 1 || (minor != 1 && minor != 2) then
        fail "found incompatible YAML document" l.start
      skip
      directives n true
    | .tagDirective handle expansion =>
      addHandle handle expansion l.start
      skip
      directives n versioned
    | _ => return ()

/-- The handles that need no directive, unless one was given for them. -/
def standardHandles (handles : List (String × List UInt8)) : List (String × List UInt8) :=
  let standard := [("!", Tag.ascii "!"), ("!!", (Tag.core "").octets)]
  handles ++ standard.filter fun h => !handles.any fun g => g.1 == h.1

/-- Reads the directives in front of a document afresh. -/
def freshDirectives : Parse Unit := do
  modify fun m => { m with handles := [] }
  directives ((← get).lexemes.length + 1) false
  modify fun m => { m with handles := standardHandles m.handles }

def isDirective : Token → Bool
  | .version .. => true
  | .tagDirective .. => true
  | _ => false

def skipDocumentEnds : Nat → Parse Unit
  | 0 => return ()
  | n + 1 => do
    if (← token) == .documentEnd then
      skip
      skipDocumentEnds n

/-- The start of a document, or the end of the text. -/
def document (first : Bool) : Parse Finding := do
  if !first then skipDocumentEnds ((← get).lexemes.length + 1)
  let t ← token
  if t == .streamEnd then
    expect .nothing
    skip
    return .streamEnd
  else if first && !isDirective t && t != .documentStart then
    freshDirectives
    afterwards .documentEnd
    expect .blockNode
    return .documentStart
  else
    freshDirectives
    let l ← peek
    if l.token != .documentStart then fail "did not find expected <document start>" l.start
    skip
    afterwards .documentEnd
    expect .content
    return .documentStart

/-! ## Nodes -/

/-- An anchor and a tag in front of a node, in either order: the names, where the first of them
begins and where the tag begins. -/
structure Properties where
  anchor : Option String := none
  tag : Option (String × List UInt8) := none
  start : Option Mark := none
  tagStart : Mark := {}
  deriving Repr

def properties : Nat → Properties → Parse Properties
  | 0, p => return p
  | n + 1, p => do
    let l ← peek
    let start := some (p.start.getD l.start)
    match l.token, p.anchor, p.tag with
    | .anchor name, none, _ =>
      skip
      properties n { p with anchor := some name, start }
    | .tag handle suffix, _, none =>
      skip
      properties n { p with tag := some (handle, suffix), start, tagStart := l.start }
    | _, _, _ => return p

/-- The tag that properties spell out. -/
def fullTag (p : Properties) : Parse (Option Tag) := do
  match p.tag with
  | none => return none
  | some ("", suffix) => return some (.ofParts [] suffix)
  | some (handle, suffix) =>
    match (← get).handles.find? (·.1 == handle) with
    | some h => return some (.ofParts h.2 suffix)
    | none => throw {
        problem := "found undefined tag handle"
        mark := p.tagStart
        context := some ("while parsing a node", p.start.getD {}) }

/-- A node. Only a block node may be a block collection, and only below a key of a mapping may a
sequence do without its own indentation. -/
def node (block indentless : Bool) : Parse Finding := do
  let l ← peek
  if let .reference name := l.token then
    resume
    skip
    return ← found (.reference name) l.start
  let p ← properties 2 {}
  let tag ← fullTag p
  let l ← peek
  let start := p.start.getD l.start
  match l.token with
  | .scalar text style =>
    resume
    skip
    found (.scalar p.anchor tag text style) start
  | .flowSequenceStart =>
    expect (.flowEntry true)
    found (.sequenceStart p.anchor tag) start
  | .flowMappingStart =>
    expect (.flowKey true)
    found (.mappingStart p.anchor tag) start
  | t =>
    if indentless && t == .blockEntry then
      expect .indentlessEntry
      found (.sequenceStart p.anchor tag) start
    else if block && t == .blockSequenceStart then
      expect (.blockEntry true)
      found (.sequenceStart p.anchor tag) start
    else if block && t == .blockMappingStart then
      expect (.blockKey true)
      found (.mappingStart p.anchor tag) start
    else if p.anchor.isSome || tag.isSome then
      resume
      found (.scalar p.anchor tag "" .plain) start
    else throw {
      problem := "did not find expected node content"
      mark := l.start
      context := some
        (if block then "while parsing a block node" else "while parsing a flow node", start) }

/-- A node, or nothing if one of the given tokens comes instead; then `next` is expected. -/
def nodeUnless (stops : List Token) (block indentless : Bool) (next : Expected) (mark : Mark) :
    Parse Finding := do
  if stops.contains (← token) then
    expect next
    missing mark
  else
    afterwards next
    node block indentless

/-- The end of the innermost collection, whose last lexeme comes next. -/
def close (e : Event) : Parse Finding := do
  let l ← peek
  resume
  leave
  skip
  found e l.start

/-- Takes the opening lexeme of a collection. -/
def opened (first : Bool) : Parse Unit := do
  if first then
    enter (← peek).start
    skip

def blockEntry (first : Bool) : Parse Finding := do
  opened first
  let l ← peek
  match l.token with
  | .blockEntry =>
    skip
    nodeUnless [.blockEntry, .blockEnd] true false (.blockEntry false) l.stop
  | .blockEnd => close .sequenceEnd
  | _ => misplaced "while parsing a block collection" "did not find expected '-' indicator"

def indentlessEntry : Parse Finding := do
  let l ← peek
  match l.token with
  | .blockEntry =>
    skip
    nodeUnless [.blockEntry, .key, .value, .blockEnd] true false .indentlessEntry l.stop
  | _ =>
    resume
    found .sequenceEnd l.start

def blockKey (first : Bool) : Parse Finding := do
  opened first
  let l ← peek
  match l.token with
  | .key =>
    skip
    nodeUnless [.key, .value, .blockEnd] true true .blockValue l.stop
  | .blockEnd => close .mappingEnd
  | _ => misplaced "while parsing a block mapping" "did not find expected key"

def blockValue : Parse Finding := do
  let l ← peek
  match l.token with
  | .value =>
    skip
    nodeUnless [.key, .value, .blockEnd] true true (.blockKey false) l.stop
  | _ =>
    expect (.blockKey false)
    missing l.start

/-- The comma between the parts of a flow collection. -/
def comma (first : Bool) (stop : Token) (activity problem : String) : Parse Unit := do
  let t ← token
  if !first && t != stop then
    if t == .flowEntry then skip else misplaced activity problem

def flowEntry (first : Bool) : Parse Finding := do
  opened first
  comma first .flowSequenceEnd "while parsing a flow sequence"
    "did not find expected ',' or ']'"
  let l ← peek
  match l.token with
  | .flowSequenceEnd => close .sequenceEnd
  | .key =>
    expect .pairKey
    skip
    found (.mappingStart none none) l.start
  | _ =>
    afterwards (.flowEntry false)
    node false false

def pairKey : Parse Finding := do
  let l ← peek
  if [Token.value, .flowEntry, .flowSequenceEnd].contains l.token then
    skip
    expect .pairValue
    missing l.stop
  else
    afterwards .pairValue
    node false false

def pairValue : Parse Finding := do
  if (← token) == .value then
    skip
    nodeUnless [.flowEntry, .flowSequenceEnd] false false .pairEnd (← peek).start
  else
    expect .pairEnd
    missing (← peek).start

def flowKey (first : Bool) : Parse Finding := do
  opened first
  comma first .flowMappingEnd "while parsing a flow mapping"
    "did not find expected ',' or '\x7d'"
  match ← token with
  | .flowMappingEnd => close .mappingEnd
  | .key =>
    skip
    nodeUnless [.value, .flowEntry, .flowMappingEnd] false false .flowValue (← peek).start
  | _ =>
    afterwards .emptyFlowValue
    node false false

def flowValue : Parse Finding := do
  if (← token) == .value then
    skip
    nodeUnless [.flowEntry, .flowMappingEnd] false false (.flowKey false) (← peek).start
  else
    expect (.flowKey false)
    missing (← peek).start

/-- One step of the machine. -/
def step : Parse Finding := do
  match (← get).expected with
  | .firstDocument => document true
  | .nextDocument => document false
  | .content => do
    let l ← peek
    if isDirective l.token || [Token.documentStart, .documentEnd, .streamEnd].contains l.token then
      resume
      missing l.start
    else node true false
  | .documentEnd => do
    if (← token) == .documentEnd then skip
    expect .nextDocument
    return .documentEnd
  | .blockNode => node true false
  | .blockEntry first => blockEntry first
  | .indentlessEntry => indentlessEntry
  | .blockKey first => blockKey first
  | .blockValue => blockValue
  | .flowEntry first => flowEntry first
  | .pairKey => pairKey
  | .pairValue => pairValue
  | .pairEnd => do
    expect (.flowEntry false)
    found .mappingEnd (← peek).start
  | .flowKey first => flowKey first
  | .flowValue => flowValue
  | .emptyFlowValue => do
    expect (.flowKey false)
    missing (← peek).start
  | .nothing => return .streamEnd

end Parse

/-- The first document of a text. -/
structure Document where
  events : List Placed
  /-- What is wrong behind the last event, if the document is broken off. -/
  fault : Option Error := none
  /-- Does another document follow, or what is meant to be one? -/
  more : Bool := false
  deriving Repr

namespace Document

/-- The events from a state of the machine on. No more than four steps in a row take no lexeme,
which bounds the rounds. -/
def collect : Nat → Machine → Document
  | 0, _ => { events := [] }
  | n + 1, m =>
    match Parse.step.run m with
    | .error e => { events := [], fault := some e }
    | .ok (.node p, m) =>
      let d := collect n m
      { d with events := p :: d.events }
    | .ok (.documentStart, m) => collect n m
    | .ok (.streamEnd, _) => { events := [] }
    | .ok (.documentEnd, m) =>
      match Parse.step.run m with
      | .ok (.streamEnd, _) => { events := [] }
      | _ => { events := [], more := true }

/-- The first document of a text. A text without any has no events. -/
def ofText (text : String) : Document :=
  let (ls, fault) := lexemes text
  collect (4 * ls.length + 8) { lexemes := ls, fault }

end Document

end Overseer.Yaml
