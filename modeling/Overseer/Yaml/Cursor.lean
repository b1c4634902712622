/-!
# Reading YAML: places, errors and the rest of a text

A `Mark` is a place in a text. An `Error` says what is wrong and where, and what was being read
and where that began. A `Cursor` is what is left of a text and the mark
it has come to; `Take` is a computation that takes characters from it.
-/

namespace Overseer.Yaml

/-- A place: the bytes, the lines and the characters of its line before it. -/
structure Mark where
  index : Nat := 0
  line : Nat := 0
  column : Nat := 0
  deriving DecidableEq, Repr, Inhabited

namespace Mark

def isStart (m : Mark) : Bool := m.line == 0 && m.column == 0

/-- The text of a place that is not the start. -/
def shown (m : Mark) : String :=
  "line " ++ toString (m.line + 1) ++ " column " ++ toString (m.column + 1)

end Mark

/-- What is wrong with a text. -/
structure Error where
  problem : String
  mark : Mark := {}
  /-- The number of bytes before the problem, for a text with forbidden characters. -/
  offset : Nat := 0
  /-- What was being read, and where it began. -/
  context : Option (String × Mark) := none
  deriving DecidableEq, Repr

/-- The text of an error. Places at the very start are left out, and so is the start of what was
being read if it is the place of the problem. -/
def Error.message (e : Error) : String :=
  let place :=
    if !e.mark.isStart then " at " ++ e.mark.shown
    else if e.offset != 0 then " at position " ++ toString e.offset
    else ""
  let context := match e.context with
    | none => ""
    | some (activity, m) =>
      let elsewhere := m.line != e.mark.line || m.column != e.mark.column
      ", " ++ activity ++ if !m.isStart && elsewhere then " at " ++ m.shown else ""
  e.problem ++ place ++ context

/-! ## Classes of characters -/

def isBreak (c : Char) : Bool :=
  c == '\n' || c == '\r' || c == '\x85' || c == '\u2028' || c == '\u2029'

def isBlank (c : Char) : Bool := c == ' ' || c == '\t'

/-- The characters of names. -/
def isNameChar (c : Char) : Bool := c.isAlphanum || c == '_' || c == '-'

/-- May a character occur in a text at all? -/
def isAllowed (c : Char) : Bool :=
  let n := c.toNat
  n == 9 || n == 10 || n == 13 || (0x20 ≤ n && n ≤ 0x7E) || n == 0x85 ||
    (0xA0 ≤ n && n ≤ 0xFFFD) || 0x10000 ≤ n

/-- Blank, a line break, or the end of the text. -/
def isGap (c : Option Char) : Bool := c.all fun c => isBlank c || isBreak c

/-- The number of bytes that characters take. -/
def byteCount (cs : List Char) : Nat := cs.foldl (fun n c => n + c.utf8Size) 0

/-! ## The rest of a text -/

/-- What is left of a text. -/
structure Cursor where
  rest : List Char
  mark : Mark := {}
  deriving Repr, Inhabited

/-- A computation that takes characters. -/
abbrev Take (α : Type) := StateT Cursor (Except Error) α

namespace Take

/-- The character so many places ahead. -/
def ahead (n : Nat) : Take (Option Char) := do return (← get).rest[n]?

def peek : Take (Option Char) := ahead 0

def mark : Take Mark := do return (← get).mark

/-- Goes past characters that are no line breaks. -/
def skip (n : Nat) : Take Unit :=
  modify fun c =>
    { rest := c.rest.drop n
      mark := { c.mark with
        index := c.mark.index + byteCount (c.rest.take n)
        column := c.mark.column + n } }

/-- Takes the characters in front that satisfy `p`, none of which is a line break. -/
def takeWhile (p : Char → Bool) : Take (List Char) := do
  let taken := (← get).rest.takeWhile p
  skip taken.length
  return taken

/-- Goes past a line break, and gives what it stands for. There need not be one. -/
def lineBreak : Take (List Char) := do
  let c ← get
  let after (bytes : Nat) (rest : List Char) : Cursor :=
    { rest, mark := ⟨c.mark.index + bytes, c.mark.line + 1, 0⟩ }
  match c.rest with
  | '\r' :: '\n' :: rest =>
    set (after 2 rest)
    return ['\n']
  | b :: rest =>
    if isBreak b then
      set (after b.utf8Size rest)
      return [if b == '\u2028' || b == '\u2029' then b else '\n']
    else return []
  | [] => return []

/-- An error at the place the cursor has come to. -/
def fail {α : Type} (activity : String) (start : Mark) (problem : String) : Take α := do
  throw { problem, mark := ← mark, context := some (activity, start) }

/-- How many rounds a loop can take at most if each takes a character. -/
def rounds : Take Nat := do return (← get).rest.length + 1

/-- Does the line start here with a mark between documents? -/
def atDocumentMark : Take Bool := do
  let c ← get
  let indicator := c.rest.take 3
  return c.mark.column == 0 && (indicator == ['-', '-', '-'] || indicator == ['.', '.', '.'])
    && isGap c.rest[3]?

end Take

end Overseer.Yaml
