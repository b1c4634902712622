import Overseer.Config.Value
import Overseer.Text.Blank
import Overseer.Text.Digits

/-!
# Environment variables

`Variables.entries` is a snapshot of the variables that start with a prefix, whatever its case.
The rest of a name, in lower case, is a path of keys: two underscores and a point both separate
keys, and a name with an empty key is passed over. `Variables.value` gives a text the kind that
it looks like.
-/

namespace Overseer

namespace Variables

/-! ## The values of texts -/

/-- The characters that are passed over around a value. -/
def isSpace (c : Char) : Bool :=
  c == ' ' || c == '\t' || c == '\n' || c == '\x0c' || c == '\r'

/-- The characters that end a bare text. -/
def isSeparator (c : Char) : Bool :=
  c == ',' || c == '\x7b' || c == '\x7d' || c == '[' || c == ']'

/-- The characters of a bare key. -/
def isKeyChar (c : Char) : Bool := c.isAlphanum || c == '_' || c == '-'

/-- A bare text: a number with a point, a natural number, an integer, or else itself. -/
def bare (cs : List Char) : Value :=
  let s := String.ofList cs
  let float := if cs.contains '.' then Binary64.decimal? s else none
  match float with
  | some x => .float x
  | none =>
    match cs with
    | '-' :: ds =>
      let n := Binary64.digitsValue ds
      if !ds.isEmpty && ds.all Char.isDigit && n ≤ Word.count 63 then .signed (-n) else .string s
    | _ =>
      let ds := if cs.head? == some '+' then cs.tail else cs
      let n := Binary64.digitsValue ds
      if !ds.isEmpty && ds.all Char.isDigit && n < Word.count 64 then .unsigned n else .string s

/-- The text between quotes as it is written, if the closing one is there, and what follows. A
backslash stops a quote from closing. -/
def quoted? : List Char → Option (List Char × List Char)
  | [] => none
  | '"' :: rest => some ([], rest)
  | '\\' :: c :: rest => (quoted? rest).map fun q => ('\\' :: c :: q.1, q.2)
  | c :: rest => (quoted? rest).map fun q => (c :: q.1, q.2)

/-- The character that a letter behind a backslash stands for. -/
def simpleEscape? : Char → Option Char
  | '"' => some '"'
  | '\\' => some '\\'
  | 'b' => some '\x08'
  | 'f' => some '\x0c'
  | 'n' => some '\n'
  | 'r' => some '\r'
  | 't' => some '\t'
  | _ => none

/-- The number of digits behind a letter of an escape. -/
def escapeWidth? : Char → Option Nat
  | 'u' => some 4
  | 'U' => some 8
  | _ => none

/-- The character with a code that is written with a number of digits. -/
def coded? (width : Nat) (ds : List Char) : Option Char := do
  if ds.length < width then none
  let n ← Text.natural? 16 (ds.take width)
  if n.isValidChar then some (Char.ofNat n) else none

/-- May a character stand between quotes as it is? -/
def isPlain (c : Char) : Bool := c == '\t' || (' ' ≤ c && c != '\x7f')

/-- What a text between quotes stands for, if all its escapes are known. -/
def unescape? (cs : List Char) : Option (List Char) :=
  match cs with
  | [] => some []
  | '\\' :: c :: rest =>
    match escapeWidth? c with
    | some width => do return (← coded? width rest) :: (← unescape? (rest.drop width))
    | none => do return (← simpleEscape? c) :: (← unescape? rest)
  | c :: rest => if c != '\\' && isPlain c then (unescape? rest).map (c :: ·) else none
termination_by cs.length
decreasing_by all_goals simp <;> omega

/-- A text behind its first quote, and what follows the second. -/
def text? (cs : List Char) : Option (String × List Char) := do
  let (written, rest) ← quoted? cs
  return (String.ofList (← unescape? written), rest)

/-- A key in front of a text, and what follows. -/
def key? : List Char → Option (String × List Char)
  | '"' :: rest => text? rest
  | cs =>
    let key := cs.takeWhile isKeyChar
    if key.isEmpty then none else some (String.ofList key, cs.dropWhile isKeyChar)

def skipSpace (cs : List Char) : List Char := cs.dropWhile isSpace

mutual

/-- A value in front of a text, and what follows the space behind it. The number bounds the
rounds. -/
def value? : Nat → List Char → Option (Value × List Char)
  | 0, _ => none
  | rounds + 1, cs => do
    let (v, rest) ← match skipSpace cs with
      | 't' :: 'r' :: 'u' :: 'e' :: rest => some (.bool true, rest)
      | 'f' :: 'a' :: 'l' :: 's' :: 'e' :: rest => some (.bool false, rest)
      | '\x7b' :: rest => (entries? rounds rest []).map fun r => (.dict r.1, r.2)
      | '[' :: rest => (items? rounds rest []).map fun r => (.array r.1, r.2)
      | '"' :: rest => (text? rest).map fun r => (.string r.1, r.2)
      | '\'' :: rest =>
        match rest with
        | c :: '\'' :: rest => some (.char c, rest)
        | _ => none
      | cs =>
        let text := cs.takeWhile fun c => !isSeparator c
        some (bare (Text.trim text), cs.dropWhile fun c => !isSeparator c)
    return (v, skipSpace rest)

/-- The items of an array behind its bracket, after those that have been read. The closing bracket
may follow a comma, but no space may be before it there: a space would be an empty text. -/
def items? : Nat → List Char → List Value → Option (List Value × List Char)
  | 0, _, _ => none
  | rounds + 1, cs, done =>
    match cs with
    | ']' :: rest => some (done.reverse, rest)
    | cs => do
      let (v, rest) ← value? rounds cs
      match rest with
      | ',' :: rest => items? rounds rest (v :: done)
      | ']' :: rest => some ((v :: done).reverse, rest)
      | _ => none

/-- The entries of a dictionary behind its brace, after those that have been read. -/
def entries? : Nat → List Char → Entries → Option (Entries × List Char)
  | 0, _, _ => none
  | rounds + 1, cs, done =>
    match cs with
    | '\x7d' :: rest => some (done, rest)
    | cs => do
      let (key, rest) ← key? (skipSpace cs)
      match skipSpace rest with
      | '=' :: rest =>
        let (v, rest) ← value? rounds rest
        let done := Entries.put key v done
        match rest with
        | ',' :: rest => entries? rounds rest done
        | '\x7d' :: rest => some (done, rest)
        | _ => none
      | _ => none

end

/-- The value that a text stands for: itself, if it is not wholly a value of another kind. -/
def value (s : String) : Value :=
  match value? (2 * s.length + 2) s.toList with
  | some (v, []) => v
  | _ => .string s

/-! ## The paths of names -/

/-- The keys of the rest of a name. -/
def keys : List Char → List (List Char)
  | [] => [[]]
  | '_' :: '_' :: cs => [] :: keys cs
  | '.' :: cs => [] :: keys cs
  | c :: cs =>
    match keys cs with
    | [] => [[c]]
    | k :: ks => (c :: k) :: ks

/-- What follows a prefix, whatever the case of either. -/
def afterPrefix? (start name : List Char) : Option (List Char) :=
  let lower := List.map Char.toLower
  if (lower start).isPrefixOf (lower name) then some (name.drop start.length) else none

/-- The path of keys that a name stands for under a prefix. -/
def path? (start name : String) : Option (List String) :=
  (afterPrefix? start.toList (Text.trim name.toList)).bind fun rest =>
    let ks := keys ((Text.trim rest).map Char.toLower)
    if ks.any List.isEmpty then none else some (ks.map String.ofList)

/-- The prefix with an underscore at its end. -/
def withUnderscore (start : String) : String :=
  if start.toList.getLast? == some '_' then start else start ++ "_"

/-- The variables under a prefix as nested entries, later ones laid over earlier ones. -/
def entries (start : String) (environment : List (String × String)) : Entries :=
  environment.foldl
    (fun es v =>
      match path? (withUnderscore start) v.1 with
      | none => es
      | some path =>
        match Value.merge .replace (.dict es) (Value.nested path (value v.2)) with
        | .dict es => es
        | _ => es)
    []

end Variables

end Overseer
