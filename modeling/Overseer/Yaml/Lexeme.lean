import Overseer.Yaml.Scalar

/-!
# From text to lexemes

`lexemes` cuts a text into tokens. Whether a word is the key of a mapping is only known when the
colon behind it is found, on the same line and not too far away. Until then the word is kept
back, because a key token, and perhaps the start of a mapping, goes in front of it. A lexeme is
given out only when nothing can go in front of it any more, so the lexemes before an error are
exactly those that a reader of the text has seen when it meets the error.
-/

namespace Overseer.Yaml

/-- A word that may turn out to be a key. -/
structure KeyChance where
  /-- Must it be one? A word at the indentation of a block mapping must. -/
  required : Bool
  /-- The number of its lexeme. -/
  number : Nat
  mark : Mark
  deriving DecidableEq, Repr

/-- How far a text has been cut. -/
structure Scanner where
  cursor : Cursor
  /-- The column of the innermost block collection, or -1. -/
  indent : Int := -1
  /-- The columns of the collections around it. -/
  outer : List Int := []
  /-- A possible key for every open flow collection and one outside, the innermost first. -/
  chances : List (Option KeyChance) := [none]
  /-- May a key begin here? -/
  keyAllowed : Bool := true
  /-- The lexemes that are kept back. -/
  queue : List Lexeme := []
  /-- How many lexemes have been given out. -/
  given : Nat := 0
  finished : Bool := false
  deriving Repr

/-- A computation that cuts lexemes off a text. -/
abbrev Scan (α : Type) := StateT Scanner (Except Error) α

namespace Scan

def onText {α : Type} (t : Take α) : Scan α := do
  let s ← get
  match t.run s.cursor with
  | .error e => throw e
  | .ok (a, cursor) =>
    set { s with cursor }
    return a

def mark : Scan Mark := do return (← get).cursor.mark

/-- An error at the place the text has been cut to. -/
def fail {α : Type} (problem : String) : Scan α := do
  throw { problem, mark := ← mark }

/-- Is a flow collection open? -/
def inFlow : Scan Bool := do return 1 < (← get).chances.length

def emit (l : Lexeme) : Scan Unit := modify fun s => { s with queue := s.queue ++ [l] }

/-- Puts a lexeme in front of the one with a number. -/
def emitBefore (number : Nat) (l : Lexeme) : Scan Unit :=
  modify fun s => { s with queue := s.queue.insertIdx (number - s.given) l }

/-- A lexeme without extent. -/
def point (t : Token) (m : Mark) : Lexeme := ⟨t, m, m⟩

/-- A lexeme of so many characters. -/
def symbol (t : Token) (length : Nat) : Scan Unit := do
  let start ← mark
  onText (Take.skip length)
  emit ⟨t, start, ← mark⟩

def allowKey (allowed : Bool) : Scan Unit := modify fun s => { s with keyAllowed := allowed }

/-! ## Possible keys -/

def missingColon {α : Type} (k : KeyChance) : Scan α := do
  throw {
    problem := "could not find expected ':'"
    mark := ← mark
    context := some ("while scanning a simple key", k.mark) }

/-- Gives up the possible key of the innermost collection. -/
def dropChance : Scan Unit := do
  let s ← get
  match s.chances with
  | some k :: rest =>
    if k.required then missingColon k
    set { s with chances := none :: rest }
  | _ => return ()

/-- Notes that a key may begin here. -/
def saveChance : Scan Unit := do
  let s ← get
  if s.keyAllowed then
    let m ← mark
    let required := !(← inFlow) && s.indent == m.column
    dropChance
    let k : KeyChance := { required, number := s.given + s.queue.length, mark := m }
    modify fun s => { s with chances := some k :: s.chances.tail }

/-- A key is on one line and not longer than 1024 bytes. -/
def isStale (m : Mark) (k : KeyChance) : Bool :=
  k.mark.line < m.line || k.mark.index + 1024 < m.index

/-- Gives up the possible keys that are too far away. -/
def dropStale : Scan Unit := do
  let m ← mark
  let s ← get
  let stale := s.chances.reverse.filterMap (Option.filter (isStale m))
  match stale.find? KeyChance.required with
  | some k => missingColon k
  | none => set { s with chances := s.chances.map (Option.filter fun k => !isStale m k) }

/-! ## Indentation -/

/-- Opens a block collection at a column, unless one is open there. -/
def rollIndent (column : Nat) (number : Option Nat) (t : Token) (m : Mark) : Scan Unit := do
  let s ← get
  if !(← inFlow) && s.indent < column then
    set { s with indent := column, outer := s.indent :: s.outer }
    match number with
    | none => emit (point t m)
    | some n => emitBefore n (point t m)

/-- The block collections that end at a column: what is left and how many they are. -/
def unrolled (column : Int) : Int → List Int → (Int × List Int) × Nat
  | indent, [] => ((indent, []), 0)
  | indent, i :: outer =>
    if column < indent then
      let (left, n) := unrolled column i outer
      (left, n + 1)
    else ((indent, i :: outer), 0)

/-- Closes the block collections that end at a column. -/
def unrollIndent (column : Int) : Scan Unit := do
  if !(← inFlow) then
    let s ← get
    let ((indent, outer), n) := unrolled column s.indent s.outer
    let ends := List.replicate n (point .blockEnd s.cursor.mark)
    set { s with indent, outer, queue := s.queue ++ ends }

/-! ## Space between tokens -/

/-- Goes to the next token. A byte order mark may stand at the start of a line. -/
def toNextToken : Nat → Scan Unit
  | 0 => return ()
  | n + 1 => do
    if (← mark).column == 0 && (← onText Take.peek) == some '\ufeff' then onText (Take.skip 1)
    let tabs := (← inFlow) || !(← get).keyAllowed
    let _ ← onText (Take.takeWhile fun c => c == ' ' || (tabs && c == '\t'))
    if (← onText Take.peek) == some '#' then
      let _ ← onText (Take.takeWhile fun c => !isBreak c)
    if (← onText Take.peek).any isBreak then
      let _ ← onText Take.lineBreak
      if !(← inFlow) then allowKey true
      toNextToken n

/-! ## Directives -/

def versionNumber (start : Mark) : Take Nat := do
  let activity := "while scanning a %YAML directive"
  let ds := (← get).rest.takeWhile Char.isDigit
  Take.skip (min ds.length 9)
  if 9 < ds.length then Take.fail activity start "found extremely long version number"
  if ds.isEmpty then Take.fail activity start "did not find expected version number"
  return ds.foldl (fun n c => 10 * n + (c.toNat - '0'.toNat)) 0

def version (start : Mark) : Take Token := do
  let _ ← Take.takeWhile isBlank
  let major ← versionNumber start
  if (← Take.peek) != some '.' then
    Take.fail "while scanning a %YAML directive" start
      "did not find expected digit or '.' character"
  Take.skip 1
  return .version major (← versionNumber start)

/-- The handle of a tag: names between exclamation marks. -/
def tagHandle (directive : Bool) (start : Mark) : Take String := do
  let activity := if directive then "while scanning a tag directive" else "while scanning a tag"
  if (← Take.peek) != some '!' then Take.fail activity start "did not find expected '!'"
  Take.skip 1
  let name ← Take.takeWhile isNameChar
  if (← Take.peek) == some '!' then
    Take.skip 1
    return String.ofList ('!' :: name ++ ['!'])
  if directive && !name.isEmpty then
    Take.fail "while parsing a tag directive" start "did not find expected '!'"
  return String.ofList ('!' :: name)

def isUriChar (brackets : Bool) (c : Char) : Bool :=
  isNameChar c || ";/?:@&=+$.!~*'()".toList.contains c || (brackets && ",[]".toList.contains c)

/-- A byte that is written as a percent sign and two digits. -/
def octet? : List Char → Option UInt8
  | '%' :: a :: b :: _ => (Text.natural? 16 [a, b]).map UInt8.ofNat
  | _ => none

/-- The number of bytes of a character by its first byte. -/
def utf8Width? (b : UInt8) : Option Nat :=
  if b < 0x80 then some 1
  else if b &&& 0xE0 == 0xC0 then some 2
  else if b &&& 0xF0 == 0xE0 then some 3
  else if b &&& 0xF8 == 0xF0 then some 4
  else none

/-- An escaped byte that comes next. -/
def octet (activity : String) (start : Mark) : Take UInt8 := do
  match octet? (← get).rest with
  | some b => return b
  | none => Take.fail activity start "did not find URI escaped octet"

/-- The bytes after the first one of a character. -/
def trailing (activity : String) (start : Mark) : Nat → Take (List UInt8)
  | 0 => return []
  | n + 1 => do
    let b ← octet activity start
    if b &&& 0xC0 != 0x80 then
      Take.fail activity start "found an incorrect trailing UTF-8 octet"
    Take.skip 3
    return b :: (← trailing activity start n)

/-- The escaped bytes of a character. -/
def uriEscape (activity : String) (start : Mark) : Take (List UInt8) := do
  let b ← octet activity start
  match utf8Width? b with
  | none => Take.fail activity start "found an incorrect leading UTF-8 octet"
  | some width =>
    Take.skip 3
    return b :: (← trailing activity start (width - 1))

/-- The rest of the name of a tag. -/
def uriRest (brackets : Bool) (activity : String) (start : Mark) :
    Nat → List UInt8 → Take (List UInt8)
  | 0, name => return name
  | n + 1, name => do
    match ← Take.peek with
    | none => return name
    | some c =>
      if c == '%' then
        uriRest brackets activity start n (name ++ (← uriEscape activity start))
      else if isUriChar brackets c then
        Take.skip 1
        uriRest brackets activity start n (name ++ [UInt8.ofNat c.toNat])
      else return name

/-- The name of a tag behind its handle. A handle that turned out to be none is its beginning. -/
def tagUri (brackets directive : Bool) (start : Mark) (head : String) : Take (List UInt8) := do
  let activity := if directive then "while parsing a %TAG directive" else "while parsing a tag"
  let name ← uriRest brackets activity start (← Take.rounds) []
  if name.isEmpty && head.isEmpty then
    Take.fail activity start "did not find expected tag URI"
  return (Tag.ascii head).drop 1 ++ name

def tagDirective (start : Mark) : Take Token := do
  let activity := "while scanning a %TAG directive"
  let _ ← Take.takeWhile isBlank
  let handle ← tagHandle true start
  if !(← Take.peek).any isBlank then
    Take.fail activity start "did not find expected whitespace"
  let _ ← Take.takeWhile isBlank
  let expansion ← tagUri true true start ""
  if !isGap (← Take.peek) then
    Take.fail activity start "did not find expected whitespace or line break"
  return .tagDirective handle expansion

def directive : Take Lexeme := do
  let activity := "while scanning a directive"
  let start ← Take.mark
  Take.skip 1
  let name ← Take.takeWhile isNameChar
  if name.isEmpty then Take.fail activity start "could not find expected directive name"
  if !isGap (← Take.peek) then
    Take.fail activity start "found unexpected non-alphabetical character"
  let token ←
    if name == "YAML".toList then version start
    else if name == "TAG".toList then tagDirective start
    else Take.fail activity start "found unknown directive name"
  let stop ← Take.mark
  Take.blanksAndComment
  if (← Take.peek).any fun c => !isBreak c then
    Take.fail activity start "did not find expected comment or line break"
  let _ ← Take.lineBreak
  return ⟨token, start, stop⟩

/-! ## Anchors and tags -/

/-- The name behind an ampersand or an asterisk. -/
def anchorName (activity : String) (make : String → Token) : Take Lexeme := do
  let start ← Take.mark
  Take.skip 1
  let name ← Take.takeWhile isNameChar
  let c ← Take.peek
  if name.isEmpty || !(isGap c || c.any "?:,]\x7d%@`".toList.contains) then
    Take.fail activity start "did not find expected alphabetic or numeric character"
  return ⟨make (String.ofList name), start, ← Take.mark⟩

/-- The handle and the rest of a tag. -/
def tagParts (start : Mark) : Take (String × List UInt8) := do
  if (← Take.ahead 1) == some '<' then
    Take.skip 2
    let suffix ← tagUri true false start ""
    if (← Take.peek) != some '>' then
      Take.fail "while scanning a tag" start "did not find the expected '>'"
    Take.skip 1
    return ("", suffix)
  let handle ← tagHandle false start
  if 1 < handle.length && handle.toList.getLast? == some '!' then
    return (handle, ← tagUri false false start "")
  let suffix ← tagUri false false start handle
  return if (Tag.untilZero suffix).isEmpty then ("", Tag.ascii "!") else ("!", suffix)

def tag (flow : Bool) : Take Lexeme := do
  let start ← Take.mark
  let (handle, suffix) ← tagParts start
  let c ← Take.peek
  if !(flow && c == some ',') && !isGap c then
    Take.fail "while scanning a tag" start "did not find expected whitespace or line break"
  return ⟨.tag handle suffix, start, ← Take.mark⟩

/-! ## One step -/

/-- The end of the text. -/
def streamEnd : Scan Unit := do
  modify fun s =>
    let m := s.cursor.mark
    if m.column != 0 then
      { s with cursor := { s.cursor with mark := { m with line := m.line + 1, column := 0 } } }
    else s
  unrollIndent (-1)
  dropChance
  allowKey false
  emit (point .streamEnd (← mark))
  modify fun s => { s with finished := true }

/-- What stands alone at the start of a line. -/
def topLevel : Scan Unit := do
  unrollIndent (-1)
  dropChance
  allowKey false

def flowStart (t : Token) : Scan Unit := do
  saveChance
  modify fun s => { s with chances := none :: s.chances, keyAllowed := true }
  symbol t 1

def flowEnd (t : Token) : Scan Unit := do
  dropChance
  modify fun s =>
    { s with
      chances := if s.chances.length ≤ 1 then s.chances else s.chances.tail
      keyAllowed := false }
  symbol t 1

def blockEntry : Scan Unit := do
  if !(← inFlow) then
    if !(← get).keyAllowed then
      fail "block sequence entries are not allowed in this context"
    let m ← mark
    rollIndent m.column none .blockSequenceStart m
  dropChance
  allowKey true
  symbol .blockEntry 1

def key : Scan Unit := do
  if !(← inFlow) then
    if !(← get).keyAllowed then fail "mapping keys are not allowed in this context"
    let m ← mark
    rollIndent m.column none .blockMappingStart m
  dropChance
  allowKey !(← inFlow)
  symbol .key 1

def value : Scan Unit := do
  match (← get).chances.head? with
  | some (some k) =>
    emitBefore k.number (point .key k.mark)
    rollIndent k.mark.column (some k.number) .blockMappingStart k.mark
    modify fun s => { s with chances := none :: s.chances.tail, keyAllowed := false }
  | _ =>
    if !(← inFlow) then
      if !(← get).keyAllowed then fail "mapping values are not allowed in this context"
      let m ← mark
      rollIndent m.column none .blockMappingStart m
    allowKey !(← inFlow)
  symbol .value 1

/-- A word that may be a key, or stand before one. -/
def keyWord (t : Take Lexeme) : Scan Unit := do
  saveChance
  allowKey false
  emit (← onText t)

def plain : Scan Unit := do
  saveChance
  allowKey false
  let (l, broken) ← onText (Take.plain (← inFlow) ((← get).indent + 1))
  if broken then allowKey true
  emit l

def blockScalar (folded : Bool) : Scan Unit := do
  dropChance
  allowKey true
  emit (← onText (Take.block folded (← get).indent))

/-- Can a plain scalar begin with `c`, with `d` behind it? -/
def startsPlain (flow : Bool) (c : Char) (d : Option Char) : Bool :=
  !(isBlank c || isBreak c || "-?:,[]\x7b\x7d#&*!|>'\"%@`".toList.contains c)
    || (c == '-' && !d.any isBlank)
    || (!flow && (c == '?' || c == ':') && !isGap d)

/-- Cuts the next token off the text, and whatever comes with it. -/
def step : Scan Unit := do
  toNextToken (← onText Take.rounds)
  dropStale
  unrollIndent (← mark).column
  let flow ← inFlow
  let start := (← mark).column == 0
  let d ← onText (Take.ahead 1)
  match ← onText Take.peek with
  | none => streamEnd
  | some c =>
    if start && c == '%' then
      topLevel
      emit (← onText directive)
    else if ← onText Take.atDocumentMark then
      topLevel
      symbol (if c == '-' then .documentStart else .documentEnd) 3
    else if c == '[' then flowStart .flowSequenceStart
    else if c == '\x7b' then flowStart .flowMappingStart
    else if c == ']' then flowEnd .flowSequenceEnd
    else if c == '\x7d' then flowEnd .flowMappingEnd
    else if c == ',' then
      dropChance
      allowKey true
      symbol .flowEntry 1
    else if c == '-' && isGap d then blockEntry
    else if c == '?' && (flow || isGap d) then key
    else if c == ':' && (flow || isGap d) then value
    else if c == '*' then keyWord (anchorName "while scanning an alias" .reference)
    else if c == '&' then keyWord (anchorName "while scanning an anchor" .anchor)
    else if c == '!' then keyWord (tag flow)
    else if c == '|' && !flow then blockScalar false
    else if c == '>' && !flow then blockScalar true
    else if c == '\'' then keyWord (Take.quoted true)
    else if c == '"' then keyWord (Take.quoted false)
    else if startsPlain flow c d then plain
    else
      let m ← mark
      onText (Take.fail "while scanning for the next token" m
        "found character that cannot start any token")

/-! ## All lexemes -/

/-- The lexemes that can be given out, and those that are kept back. -/
def release (s : Scanner) : List Lexeme × Scanner :=
  let firstHeld := s.chances.filterMap (·.map KeyChance.number) |>.min?
  let n := match firstHeld with
    | none => s.queue.length
    | some k => min (k - s.given) s.queue.length
  (s.queue.take n, { s with queue := s.queue.drop n, given := s.given + n })

/-- The lexemes up to the end of the text or an error. -/
def all : Nat → Scanner → List Lexeme × Option Error
  | 0, _ => ([], none)
  | n + 1, s =>
    if s.finished then ([], none)
    else
      match (do step; dropStale : Scan Unit).run s with
      | .error e => ([], some e)
      | .ok (_, s) =>
        let (out, s) := release s
        let (rest, e) := all n s
        (out ++ rest, e)

end Scan

/-- The first forbidden character of a text, with the number of bytes before it. -/
def forbidden? : List Char → Nat → Option Nat
  | [], _ => none
  | c :: cs, n => if isAllowed c then forbidden? cs (n + c.utf8Size) else some n

/-- The lexemes of a text, up to its end or to an error. -/
def lexemes (text : String) : List Lexeme × Option Error :=
  let cs := text.toList
  match forbidden? cs 0 with
  | some offset => ([], some { problem := "control characters are not allowed", offset })
  | none => Scan.all (cs.length + 2) { cursor := ⟨cs, {}⟩ }

end Overseer.Yaml
