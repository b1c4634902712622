import Overseer.Text.Digits
import Overseer.Yaml.Token

/-!
# Scalars

The texts of plain, quoted and block scalars. Within the first two a line break is folded: a
single one becomes a space, and of several the first one is dropped. `Gap` collects blanks and
breaks until it is clear whether text follows them.
-/

namespace Overseer.Yaml

/-- Blanks and line breaks between two pieces of text. -/
structure Gap where
  blanks : List Char := []
  /-- The first line break, if it counts. -/
  first : List Char := []
  later : List Char := []
  broken : Bool := false
  deriving Repr, Inhabited

namespace Gap

/-- What a gap between two pieces of text stands for. -/
def joined (g : Gap) : List Char :=
  if !g.broken then g.blanks
  else if g.first == ['\n'] then (if g.later.isEmpty then [' '] else g.later)
  else g.first ++ g.later

/-- The gap with a blank at its end. Blanks after a line break do not count. -/
def blank (g : Gap) (c : Char) : Gap :=
  if g.broken then g else { g with blanks := g.blanks ++ [c] }

/-- The gap with a line break at its end. -/
def lineBreak (g : Gap) (b : List Char) : Gap :=
  if g.broken then { g with later := g.later ++ b }
  else { first := b, broken := true }

end Gap

namespace Take

/-! ## Plain scalars -/

/-- How a piece of a plain scalar ends. -/
inductive WordEnd where
  | stop
  /-- At a colon that is not allowed here. -/
  | badColon
  deriving DecidableEq, Repr

/-- The number of characters of a piece of a plain scalar, and how it ends. -/
def word (flow : Bool) : List Char → Nat × WordEnd
  | [] => (0, .stop)
  | c :: rest =>
    if isBlank c || isBreak c then (0, .stop)
    else if flow && c == ':' && rest.head?.any [',', '?', '[', ']', '\x7b', '\x7d'].contains then
      (0, .badColon)
    else if (c == ':' && isGap rest.head?)
        || (flow && [',', '[', ']', '\x7b', '\x7d'].contains c) then (0, .stop)
    else let (n, e) := word flow rest; (n + 1, e)

/-- The gap behind a piece of a plain scalar. -/
def plainGap (indent : Int) (start : Mark) : Nat → Gap → Take Gap
  | 0, g => return g
  | n + 1, g => do
    match ← peek with
    | none => return g
    | some c =>
      if isBlank c then
        if g.broken && (← mark).column < indent && c == '\t' then
          fail "while scanning a plain scalar" start
            "found a tab character that violates indentation"
        skip 1
        plainGap indent start n (g.blank c)
      else if isBreak c then
        let b ← lineBreak
        plainGap indent start n (g.lineBreak b)
      else return g

/-- The rest of a plain scalar: its text, its end, and whether a line break follows. -/
def plainRest (flow : Bool) (indent : Int) (start : Mark) :
    Nat → List Char → Mark → Gap → Take (List Char × Mark × Bool)
  | 0, text, stop, g => return (text, stop, g.broken)
  | n + 1, text, stop, g => do
    if (← atDocumentMark) || (← peek) == some '#' then return (text, stop, g.broken)
    let rest := (← get).rest
    let (length, ending) := word flow rest
    let piece := rest.take length
    skip length
    let here ← mark
    let (text, stop, g) :=
      if piece.isEmpty then (text, stop, g) else (text ++ g.joined ++ piece, here, {})
    if ending == .badColon then
      fail "while scanning a plain scalar" start "found unexpected ':'"
    if !(← peek).any (fun c => isBlank c || isBreak c) then return (text, stop, g.broken)
    let g ← plainGap indent start (← rounds) g
    if !flow && (← mark).column < indent then return (text, stop, g.broken)
    plainRest flow indent start n text stop g

/-- A plain scalar that must be indented by so much. The flag says whether it ends with a line
break. -/
def plain (flow : Bool) (indent : Int) : Take (Lexeme × Bool) := do
  let start ← mark
  let (text, stop, broken) ← plainRest flow indent start (← rounds) [] start {}
  return (⟨.scalar (String.ofList text) .plain, start, stop⟩, broken)

/-! ## Quoted scalars -/

/-- The characters that a backslash and a letter stand for. -/
def simpleEscape? : Char → Option Char
  | '0' => some '\x00'
  | 'a' => some '\x07'
  | 'b' => some '\x08'
  | 't' => some '\t'
  | '\t' => some '\t'
  | 'n' => some '\n'
  | 'v' => some '\x0b'
  | 'f' => some '\x0c'
  | 'r' => some '\r'
  | 'e' => some '\x1b'
  | ' ' => some ' '
  | '"' => some '"'
  | '/' => some '/'
  | '\\' => some '\\'
  | 'N' => some '\x85'
  | '_' => some '\xa0'
  | 'L' => some '\u2028'
  | 'P' => some '\u2029'
  | _ => none

/-- The number of digits behind a letter of an escape. -/
def escapeWidth? : Char → Option Nat
  | 'x' => some 2
  | 'u' => some 4
  | 'U' => some 8
  | _ => none

/-- The character of an escape, from its backslash on. -/
def escape (start : Mark) : Take Char := do
  let activity := "while parsing a quoted scalar"
  let letter := (← ahead 1).getD '\x00'
  match simpleEscape? letter, escapeWidth? letter with
  | some c, _ =>
    skip 2
    return c
  | none, none => fail activity start "found unknown escape character"
  | none, some width =>
    skip 2
    let ds := (← get).rest.take width
    match if ds.length < width then none else Text.natural? 16 ds with
    | none => fail activity start "did not find expected hexadecimal number"
    | some n =>
      if (0xD800 ≤ n && n ≤ 0xDFFF) || 0x10FFFF < n then
        fail activity start "found invalid Unicode character escape code"
      skip width
      return Char.ofNat n

/-- A piece of a quoted scalar up to a gap or the closing quote, and whether it ends with an
escaped line break. -/
def quotedPiece (single : Bool) (start : Mark) : Nat → List Char → Take (List Char × Bool)
  | 0, text => return (text, false)
  | n + 1, text => do
    let c ← peek
    let d ← ahead 1
    if isGap c then return (text, false)
    else if single && c == some '\'' && d == some '\'' then
      skip 2
      quotedPiece single start n (text ++ ['\''])
    else if c == some (if single then '\'' else '"') then return (text, false)
    else if !single && c == some '\\' then
      if d.any isBreak then
        skip 1
        let _ ← lineBreak
        return (text, true)
      else quotedPiece single start n (text ++ [← escape start])
    else
      skip 1
      quotedPiece single start n (text ++ c.toList)

/-- The gap behind a piece of a quoted scalar. -/
def quotedGap : Nat → Gap → Take Gap
  | 0, g => return g
  | n + 1, g => do
    match ← peek with
    | none => return g
    | some c =>
      if isBlank c then
        skip 1
        quotedGap n (g.blank c)
      else if isBreak c then
        let b ← lineBreak
        quotedGap n (g.lineBreak b)
      else return g

/-- The rest of a quoted scalar, its closing quote included. -/
def quotedRest (single : Bool) (start : Mark) : Nat → List Char → Take (List Char)
  | 0, text => return text
  | n + 1, text => do
    let activity := "while scanning a quoted scalar"
    if ← atDocumentMark then fail activity start "found unexpected document indicator"
    if (← peek).isNone then fail activity start "found unexpected end of stream"
    let (text, escaped) ← quotedPiece single start (← rounds) text
    if (← peek) == some (if single then '\'' else '"') then
      skip 1
      return text
    let g ← quotedGap (← rounds) { broken := escaped }
    quotedRest single start n (text ++ g.joined)

/-- A scalar between quotes. -/
def quoted (single : Bool) : Take Lexeme := do
  let start ← mark
  skip 1
  let text ← quotedRest single start (← rounds) []
  return ⟨.scalar (String.ofList text) (if single then .single else .double), start, ← mark⟩

/-! ## Block scalars -/

/-- What becomes of the line breaks at the end of a block scalar. -/
inductive Chomping where
  | strip | clip | keep
  deriving DecidableEq, Repr

def chomping? : Take (Option Chomping) := do
  match ← peek with
  | some '+' =>
    skip 1
    return some .keep
  | some '-' =>
    skip 1
    return some .strip
  | _ => return none

/-- The indentation that a digit asks for. -/
def indentation? (start : Mark) : Take (Option Nat) := do
  match ← peek with
  | some '0' =>
    fail "while scanning a block scalar" start "found an indentation indicator equal to 0"
  | some c =>
    if c.isDigit then
      skip 1
      return some (c.toNat - '0'.toNat)
    else return none
  | none => return none

/-- The indicators behind the sign of a block scalar, in either order. -/
def blockHeader (start : Mark) : Take (Chomping × Option Nat) := do
  match ← chomping? with
  | some chomping => return (chomping, ← indentation? start)
  | none =>
    match ← indentation? start with
    | some n => return ((← chomping?).getD .clip, some n)
    | none => return (.clip, none)

/-- Goes past blanks and a comment. -/
def blanksAndComment : Take Unit := do
  let _ ← takeWhile isBlank
  if (← peek) == some '#' then let _ ← takeWhile fun c => !isBreak c

/-- Goes past empty lines and the indentation of the line after them. The indentation is still
to be found if it is none. Gives the line breaks, the end of the last of them, and the deepest
column that was seen. -/
def blockBreaks (indent : Option Nat) (start : Mark) :
    Nat → List Char → Mark → Nat → Take (List Char × Mark × Nat)
  | 0, breaks, stop, deepest => return (breaks, stop, deepest)
  | n + 1, breaks, stop, deepest => do
    let column := (← mark).column
    let spaces := ((← get).rest.takeWhile (· == ' ')).length
    skip (match indent with | none => spaces | some k => min spaces (k - column))
    let column := (← mark).column
    let deepest := max deepest column
    if indent.all (column < ·) && (← peek) == some '\t' then
      fail "while scanning a block scalar" start
        "found a tab character where an indentation space is expected"
    if (← peek).any isBreak then
      let b ← lineBreak
      blockBreaks indent start n (breaks ++ b) (← mark) deepest
    else return (breaks, stop, deepest)

/-- A block scalar while it is read. -/
structure Block where
  text : List Char := []
  /-- The break behind the last line of text. -/
  last : List Char := []
  /-- The empty lines behind it. -/
  empty : List Char := []
  /-- Did the last line start with a blank? -/
  spaced : Bool := false
  stop : Mark
  deriving Repr

/-- The lines of a block scalar. -/
def blockLines (folded : Bool) (indent : Nat) (start : Mark) : Nat → Block → Take Block
  | 0, b => return b
  | n + 1, b => do
    let first ← peek
    if (← mark).column != indent || first.isNone then return b
    let spaced := first.any isBlank
    let between :=
      if folded && b.last == ['\n'] && !b.spaced && !spaced then
        if b.empty.isEmpty then [' '] else b.empty
      else b.last ++ b.empty
    let line ← takeWhile fun c => !isBreak c
    let last ← lineBreak
    let (empty, stop, _) ← blockBreaks (some indent) start (← rounds) [] (← mark) 0
    blockLines folded indent start n
      { text := b.text ++ between ++ line, last, empty, spaced, stop }

/-- A block scalar in a collection that is indented by `outer`, or by less than zero if there is
none. -/
def block (folded : Bool) (outer : Int) : Take Lexeme := do
  let start ← mark
  skip 1
  let (chomping, increment) ← blockHeader start
  blanksAndComment
  if !isGap (← peek) then
    fail "while scanning a block scalar" start "did not find expected comment or line break"
  let _ ← lineBreak
  let given := increment.map fun n => (if 0 ≤ outer then outer.toNat + n else n)
  let (empty, stop, deepest) ← blockBreaks given start (← rounds) [] (← mark) 0
  let indent := given.getD (max deepest (max (outer + 1) 1).toNat)
  let b ← blockLines folded indent start (← rounds) { empty, stop }
  let text := match chomping with
    | .strip => b.text
    | .clip => b.text ++ b.last
    | .keep => b.text ++ b.last ++ b.empty
  return ⟨.scalar (String.ofList text) (if folded then .folded else .literal), start, b.stop⟩

end Take

end Overseer.Yaml
