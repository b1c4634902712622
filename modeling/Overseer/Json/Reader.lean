import Overseer.Json.Numeral
import Overseer.Text.Digits

/-!
# Reading JSON: values

The pieces of a JSON text are read one by one, so that a reader which knows what it wants can stop
at the first thing that is wrong. `Read.elements` and `Read.members` go through an array and an
object and hand each part to a reader; `Read.skip` goes over a value that nobody wants.

The depth counts the collections that may still be entered. Every loop has as many rounds as the
text has characters, since each takes at least one.
-/

namespace Overseer.Json

/-- How deeply collections may be nested. -/
def depthLimit : Nat := 127

namespace Read

/-! ## Scalars -/

/-- The rest of a word. -/
def word : List Char → Read Unit
  | [] => return ()
  | expected :: rest => do
    match ← peek with
    | none => fail .endInValue
    | some c =>
      if c != expected then failAtNext .noIdentifier
      let _ ← next
      word rest

/-- Four hexadecimal digits. If other characters come, the error is four bytes further on. -/
def fourDigits : Read Nat := do
  let c ← get
  let taken := c.rest.take 4
  if (String.ofList taken).utf8ByteSize < 4 then
    let _ ← takeWhile fun _ => true
    fail .endInString
  match Text.natural? 16 taken with
  | some n =>
    set (⟨c.rest.drop 4, c.place.beyond 4 c.rest⟩ : Cursor)
    return n
  | none => throw ⟨.badEscape, c.place.beyond 4 c.rest⟩

/-- The next character of a string, which cannot end here. -/
def peekInString : Read Char := do
  match ← peek with
  | some c => return c
  | none => fail .endInString

/-- Takes the given character of a pair of escapes. -/
def secondHalf (expected : Char) : Read Unit := do
  if (← peekInString) != expected then failAtNext .endOfEscape
  let _ ← next

/-- The character of an escape with four digits, or of two such escapes that belong together. -/
def unicodeEscape (care : Care) : Read Char := do
  let n ← fourDigits
  if care == .skip then return Char.ofNat n
  if 0xDC00 ≤ n && n ≤ 0xDFFF then fail .loneSurrogate
  if n < 0xD800 || 0xDBFF < n then return Char.ofNat n
  secondHalf '\\'
  secondHalf 'u'
  let m ← fourDigits
  if m < 0xDC00 || 0xDFFF < m then fail .loneSurrogate
  return Char.ofNat ((n - 0xD800) * 0x400 + (m - 0xDC00) + 0x10000)

/-- The character that a letter behind a backslash stands for. -/
def simpleEscape? : Char → Option Char
  | '"' => some '"'
  | '\\' => some '\\'
  | '/' => some '/'
  | 'b' => some '\x08'
  | 'f' => some '\x0c'
  | 'n' => some '\n'
  | 'r' => some '\r'
  | 't' => some '\t'
  | _ => none

/-- The character of an escape behind the backslash. -/
def escape (care : Care) : Read Char := do
  let letter ← peekInString
  match simpleEscape? letter with
  | some c =>
    let _ ← next
    return c
  | none =>
    if letter != 'u' then failAtNext .badEscape
    let _ ← next
    unicodeEscape care

/-- The characters of a string up to its end, behind those that have been read. -/
def characters (care : Care) : Nat → List Char → Read String
  | 0, _ => fail .endInString
  | rounds + 1, done => do
    let plain ← takeWhile fun c => c != '"' && c != '\\' && 32 ≤ c.toNat
    let done := plain.reverse ++ done
    match ← peekInString with
    | '"' =>
      let _ ← next
      return String.ofList done.reverse
    | '\\' =>
      let _ ← next
      characters care rounds ((← escape care) :: done)
    | _ => failAtNext .controlCharacter

/-- How many rounds a loop can take at most. -/
def rounds : Read Nat := do return (← get).rest.length + 1

/-- A string behind its first quote. -/
def string (care : Care) : Read String := do characters care (← rounds) []

/-! ## Collections -/

/-- Is there another element? A comma before it is taken. -/
def anotherElement (first : Bool) : Read Bool := do
  match ← peekPastBlanks with
  | none => failAtNext .endInList
  | some ']' => return false
  | some c =>
    if first then return true
    if c != ',' then failAtNext .noCommaInList
    let _ ← next
    match ← peekPastBlanks with
    | none => failAtNext .endInValue
    | some ']' => failAtNext .trailingComma
    | some _ => return true

/-- The name of another member, if there is one. A comma before it is taken. -/
def anotherMember (care : Care) (first : Bool) : Read (Option String) := do
  let quote ← match ← peekPastBlanks with
    | none => failAtNext .endInObject
    | some '\x7d' => return none
    | some c =>
      if first then pure c
      else do
        if c != ',' then failAtNext .noCommaInObject
        let _ ← next
        match ← peekPastBlanks with
        | none => failAtNext .endInValue
        | some '\x7d' => failAtNext .trailingComma
        | some c => pure c
  if quote != '"' then failAtNext .keyNotText
  let _ ← next
  some <$> string care

/-- The colon behind the name of a member. -/
def colon : Read Unit := do
  match ← peekPastBlanks with
  | none => failAtNext .endInObject
  | some ':' => let _ ← next
  | some _ => failAtNext .noColon

/-- Goes through the elements of an array behind its bracket, as long as `step` wants another
one, and then takes the closing bracket. -/
def elements {σ : Type} (step : σ → Option (Read σ)) : Nat → Bool → σ → Read σ
  | 0, _, s => return s
  | rounds + 1, first, s =>
    match step s with
    | some read => do
      if ← anotherElement first then elements step rounds false (← read)
      else let _ ← next; return s
    | none => do
      match ← peekPastBlanks with
      | none => failAtNext .endInList
      | some ']' => let _ ← next; return s
      | some ',' =>
        let _ ← next
        if (← peekPastBlanks) == some ']' then failAtNext .trailingComma
        else failAtNext .trailingText
      | some _ => failAtNext .trailingText

/-- Goes through the members of an object behind its brace. `step` is given the name and reads
what follows it, the colon included. -/
def members {σ : Type} (care : Care) (step : String → σ → Read σ) : Nat → Bool → σ → Read σ
  | 0, _, s => return s
  | rounds + 1, first, s => do
    match ← anotherMember care first with
    | some name => members care step rounds false (← step name s)
    | none => let _ ← next; return s

/-! ## Values that are skipped -/

/-- Goes over a value. The first number bounds how deeply it is nested. -/
def skipValue : Nat → Read Unit
  | 0 => fail .tooDeep
  | depth + 1 => do
    match ← peekPastBlanks with
    | none => failAtNext .endInValue
    | some 'n' => let _ ← next; word ['u', 'l', 'l']
    | some 't' => let _ ← next; word ['r', 'u', 'e']
    | some 'f' => let _ ← next; word ['a', 'l', 's', 'e']
    | some '"' =>
      let _ ← next
      let _ ← string .skip
    | some '[' =>
      let _ ← next
      elements (fun _ => some (skipValue depth)) (← rounds) true ()
    | some '\x7b' =>
      let _ ← next
      members .skip (fun _ _ => do colon; skipValue depth) (← rounds) true ()
    | some c =>
      if c == '-' || c.isDigit then let _ ← numeral .skip
      else failAtNext .noValue

/-- Goes over a value of any depth. -/
def skip : Read Unit := do skipValue (← rounds)

/-- The end of the text. -/
def finish : Read Unit := do
  if (← peekPastBlanks).isSome then failAtNext .trailingText

end Read

end Overseer.Json
