/-!
# Reading JSON: places and errors

A `Cursor` is what is left of a text together with the place it has come to. A place is a line
and the number of bytes before it on that line. An error says what is wrong and where; its
category tells bad notation, a text that ends too early and a value of the wrong kind apart.
-/

namespace Overseer.Json

/-- A line, from one, and the bytes of the line before the place. -/
structure Place where
  line : Nat := 1
  column : Nat := 0
  deriving DecidableEq, Repr, Inhabited

/-- The place after a character. -/
def Place.after (p : Place) (c : Char) : Place :=
  if c == '\n' then ⟨p.line + 1, 0⟩ else ⟨p.line, p.column + c.utf8Size⟩

/-- The place that stands for a character which has been seen and not taken. It is behind the
first byte of the character. -/
def Place.ofNext (p : Place) : Option Char → Place
  | none => p
  | some '\n' => ⟨p.line + 1, 0⟩
  | some _ => ⟨p.line, p.column + 1⟩

/-- The place so many bytes further on, which may be within a character. -/
def Place.beyond (p : Place) (bytes : Nat) : List Char → Place
  | [] => p
  | c :: cs =>
    if bytes < c.utf8Size then ⟨p.line, p.column + bytes⟩
    else (p.after c).beyond (bytes - c.utf8Size) cs

/-- What can be wrong with a text. -/
inductive Cause where
  | endInList | endInObject | endInString | endInValue
  | noColon | noCommaInList | noCommaInObject
  | noIdentifier | noValue | badEscape | badNumber | outOfRange
  | controlCharacter | keyNotText | loneSurrogate | endOfEscape
  | trailingComma | trailingText | tooDeep
  /-- The text is well formed, and the value is not what was asked for. -/
  | mismatch (message : String)
  deriving DecidableEq, Repr

/-- The kinds of causes. -/
inductive Category where
  | malformed | ending | data
  deriving DecidableEq, Repr

namespace Cause

def category : Cause → Category
  | endInList | endInObject | endInString | endInValue => .ending
  | mismatch _ => .data
  | _ => .malformed

def message : Cause → String
  | endInList => "EOF while parsing a list"
  | endInObject => "EOF while parsing an object"
  | endInString => "EOF while parsing a string"
  | endInValue => "EOF while parsing a value"
  | noColon => "expected `:`"
  | noCommaInList => "expected `,` or `]`"
  | noCommaInObject => "expected `,` or `\x7d`"
  | noIdentifier => "expected ident"
  | noValue => "expected value"
  | badEscape => "invalid escape"
  | badNumber => "invalid number"
  | outOfRange => "number out of range"
  | controlCharacter => "control character (\\u0000-\\u001F) found while parsing a string"
  | keyNotText => "key must be a string"
  | loneSurrogate => "lone leading surrogate in hex escape"
  | endOfEscape => "unexpected end of hex escape"
  | trailingComma => "trailing comma"
  | trailingText => "trailing characters"
  | tooDeep => "recursion limit exceeded"
  | mismatch m => m

end Cause

/-- What is wrong, and where. -/
structure Error where
  cause : Cause
  place : Place
  deriving DecidableEq, Repr

/-- The text of an error. -/
def Error.message (e : Error) : String :=
  e.cause.message ++ " at line " ++ toString e.place.line ++ " column " ++ toString e.place.column

/-- The rest of a text and its place. -/
structure Cursor where
  rest : List Char
  place : Place := {}
  deriving Repr

/-- A computation that takes characters from a cursor. -/
abbrev Read (α : Type) := StateT Cursor (Except Error) α

namespace Read

/-- The next character, which stays where it is. -/
def peek : Read (Option Char) := do return (← get).rest.head?

/-- Takes the next character. -/
def next : Read (Option Char) := do
  match (← get) with
  | ⟨[], _⟩ => return none
  | ⟨c :: rest, place⟩ =>
    set (⟨rest, place.after c⟩ : Cursor)
    return some c

/-- An error at the place the cursor has come to. -/
def fail {α : Type} (cause : Cause) : Read α := do
  throw ⟨cause, (← get).place⟩

/-- An error about the character that comes next. -/
def failAtNext {α : Type} (cause : Cause) : Read α := do
  let c ← get
  throw ⟨cause, c.place.ofNext c.rest.head?⟩

def isBlank (c : Char) : Bool := c == ' ' || c == '\n' || c == '\t' || c == '\r'

/-- Takes the characters in front that satisfy `p`. -/
def takeWhile (p : Char → Bool) : Read (List Char) := do
  let c ← get
  let taken := c.rest.takeWhile p
  set (⟨c.rest.dropWhile p, taken.foldl Place.after c.place⟩ : Cursor)
  return taken

/-- The next character after blanks, which stays where it is. -/
def peekPastBlanks : Read (Option Char) := do
  let _ ← takeWhile isBlank
  peek

end Read

end Overseer.Json
