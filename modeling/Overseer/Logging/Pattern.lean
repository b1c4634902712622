import Overseer.Text.Alphanumeric
import Overseer.Text.Blank
import Overseer.Text.Digits

/-!
# Patterns of texts

A directive may ask for a field whose text matches a pattern: characters, classes between
brackets, groups between parentheses, alternatives, repetitions and places between characters.
No text is ever matched here, since the records that are printed here are within no span, but a
directive with a malformed pattern cannot be read. `Pattern.isWellFormed` tells which patterns are
well formed.

There are no back references, no look-around and no counted repetitions, and what needs a table
of Unicode is refused: classes by property, word characters and word boundaries beyond ASCII,
letters of either case. Without the mode `u` a pattern is about ASCII alone, and everything that
could match only a part of a longer character is refused.
-/

namespace Overseer.Pattern

/-- What letters between `(?` and `)` switch on and off. -/
structure Modes where
  /-- The case of letters does not matter. -/
  insensitive : Bool := false
  /-- The characters are all those of Unicode. -/
  unicode : Bool := true
  /-- White space and comments mean nothing. -/
  verbose : Bool := false
  deriving DecidableEq, Repr

/-- One element of a pattern. -/
inductive Atom where
  /-- A character. -/
  | literal (c : Char)
  /-- One of several characters. -/
  | set
  /-- A place between two characters. -/
  | place
  deriving DecidableEq, Repr

/-! ## Modes -/

/-- What follows white space and comments. A comment reaches to the end of its line. -/
def skipSpace (comment : Bool) : List Char → List Char
  | [] => []
  | c :: cs =>
    if comment then skipSpace (c != '\n') cs
    else if Text.isBlank c then skipSpace false cs
    else if c == '#' then skipSpace true cs
    else c :: cs

namespace Modes

/-- What follows the characters that mean nothing. -/
def skip (m : Modes) (cs : List Char) : List Char := if m.verbose then skipSpace false cs else cs

/-- Would a character match characters that only a table of Unicode knows? -/
def folds (m : Modes) : Bool := m.insensitive && m.unicode

/-- The modes after letters that switch on, and behind a dash off. Every one may occur once. -/
def switch? (m : Modes) (flags : List Char) : Option Modes :=
  if flags.Nodup && flags.all (['i', 'm', 's', 'U', 'u', 'R', 'x', '-'].contains ·) &&
      flags.getLast? != some '-' then
    let on := flags.takeWhile (· != '-')
    let off := flags.dropWhile (· != '-')
    let after (flag : Char) (before : Bool) := (before || on.contains flag) && !off.contains flag
    some ⟨after 'i' m.insensitive, after 'u' m.unicode, after 'x' m.verbose⟩
  else none

end Modes

/-! ## Characters -/

/-- The number that a fixed count of hexadecimal digits stands for, and what follows. -/
def hexadecimal? (m : Modes) : Nat → Nat → List Char → Option (Nat × List Char)
  | 0, n, cs => some (n, m.skip cs)
  | digits + 1, n, cs =>
    match m.skip cs with
    | [] => none
    | c :: cs => (Text.digit? 16 c).bind fun d => hexadecimal? m digits (16 * n + d) cs

/-- A character that is written as its code point. Two digits stand for a byte where a pattern is
about ASCII alone. -/
def coded? (m : Modes) (digits : Nat) (cs : List Char) : Option (Atom × List Char) := do
  let (n, rest) ← hexadecimal? m digits 0 cs
  if !n.isValidChar || (digits == 2 && !m.unicode && 128 ≤ n) then none
  else some (.literal (Char.ofNat n), rest)

/-- The letters that stand for a control character behind a backslash. -/
def controls : List (Char × Char) :=
  [('a', '\x07'), ('f', '\x0c'), ('t', '\t'), ('n', '\n'), ('r', '\r'), ('v', '\x0b')]

/-- What a backslash and the characters behind it stand for, and what follows. -/
def escaped? (m : Modes) : List Char → Option (Atom × List Char)
  | [] => none
  | 'x' :: cs => coded? m 2 cs
  | 'u' :: cs => coded? m 4 cs
  | 'U' :: cs => coded? m 8 cs
  | c :: cs =>
    if ['A', 'z'].contains c then some (.place, cs)
    else if ['b', 'B', '<', '>'].contains c then if m.unicode then none else some (.place, cs)
    else if ['d', 's', 'w'].contains c then if m.unicode then none else some (.set, cs)
    else if c.toNat < 128 && !c.isAlphanum then some (.literal c, cs)
    else (controls.lookup c).map fun c => (.literal c, cs)

/-! ## Classes -/

/-- The names of classes of ASCII characters. -/
def classNames : List String :=
  ["alnum", "alpha", "ascii", "blank", "cntrl", "digit", "graph", "lower", "print", "punct",
    "space", "upper", "word", "xdigit"]

/-- A named class behind its first bracket, such as `:alpha:]`: is it negated, and what follows? -/
def namedClass? : List Char → Option (Bool × List Char)
  | ':' :: cs =>
    let negated := cs.head? == some '^'
    let cs := if negated then cs.tail else cs
    match cs.dropWhile (· != ':') with
    | ':' :: ']' :: rest =>
      if classNames.contains (String.ofList (cs.takeWhile (· != ':'))) then some (negated, rest)
      else none
    | _ => none
  | _ => none

/-- What follows the start of a class behind its first bracket. There dashes, or one closing
bracket, stand for themselves. -/
def classStart? (m : Modes) (cs : List Char) : Option (List Char) :=
  let members (cs : List Char) : List Char :=
    match cs with
    | ']' :: cs => cs
    | cs => cs.dropWhile (· == '-')
  match m.skip cs with
  | '^' :: cs => if m.unicode then some (members (m.skip cs)) else none
  | cs => some (members cs)

/-- A member of a class or an end of a range, and what follows. -/
def member? (m : Modes) (cs : List Char) : Option (Atom × List Char) := do
  let (a, rest) ← match cs with
    | [] => none
    | '\\' :: cs => escaped? m cs
    | c :: cs => some (.literal c, cs)
  match a with
  | .literal c => if m.unicode || c.toNat < 128 then some (a, rest) else none
  | .set => some (a, rest)
  | .place => none

/-- What follows a member or a range of a class. The ends of a range are characters in order. -/
def range? (m : Modes) (cs : List Char) : Option (List Char) := do
  let (first, rest) ← member? m cs
  match m.skip rest with
  | '-' :: more =>
    match m.skip more with
    | [] => none
    | ']' :: _ => some ('-' :: more)
    | '-' :: _ => some ('-' :: more)
    | more =>
      match first, ← member? m more with
      | .literal a, (.literal b, rest) => if a ≤ b then some rest else none
      | _, _ => none
  | rest => some rest

/-- What follows a class, behind its first members and those of `depth` classes around it. The
first number bounds the rounds. -/
def class? (m : Modes) : Nat → Nat → List Char → Option (List Char)
  | 0, _, _ => none
  | rounds + 1, depth, cs =>
    match m.skip cs with
    | [] => none
    | ']' :: cs =>
      match depth with
      | 0 => some cs
      | depth + 1 => class? m rounds depth cs
    | '[' :: cs =>
      match namedClass? cs with
      | some (negated, cs) => if negated && !m.unicode then none else class? m rounds depth cs
      | none => (classStart? m cs).bind (class? m rounds (depth + 1))
    | '&' :: '&' :: cs => class? m rounds depth cs
    | '-' :: '-' :: cs => class? m rounds depth cs
    | '~' :: '~' :: cs => class? m rounds depth cs
    | cs => (range? m cs).bind (class? m rounds depth)

/-! ## Groups -/

/-- The place of a reader in a pattern. -/
structure State where
  modes : Modes := {}
  /-- The modes around the groups that are open, the innermost first. -/
  outer : List Modes := []
  /-- The names of groups. -/
  names : List String := []
  /-- Is something to repeat in front? -/
  repeatable : Bool := false
  deriving Repr

/-- Can a group have a name? -/
def isGroupName : List Char → Bool
  | [] => false
  | c :: cs =>
    (c == '_' || Text.isLetter c) &&
      cs.all fun c => Text.isAlphanumeric c || ['_', '.', '[', ']'].contains c

/-- A group that has been opened, and what follows its name. -/
def namedGroup? (s : State) (cs : List Char) : Option (State × List Char) :=
  let name := cs.takeWhile (· != '>')
  match cs.dropWhile (· != '>') with
  | '>' :: rest =>
    if isGroupName name && !s.names.contains (String.ofList name) then
      some ({ s with names := String.ofList name :: s.names }, rest)
    else none
  | _ => none

/-- What an opening parenthesis does: it opens a group, perhaps with a name or modes of its own,
or switches modes until the end of the group around it. -/
def group? (s : State) (cs : List Char) : Option (State × List Char) :=
  let opened := { s with outer := s.modes :: s.outer, repeatable := false }
  match s.modes.skip cs with
  | '?' :: 'P' :: '<' :: cs => namedGroup? opened cs
  | '?' :: '<' :: cs => namedGroup? opened cs
  | '?' :: cs =>
    let isFlag (c : Char) := c != ':' && c != ')'
    let flags := cs.takeWhile isFlag
    (s.modes.switch? flags).bind fun modes =>
      match cs.dropWhile isFlag with
      | ')' :: rest =>
        if flags.isEmpty then none else some ({ s with modes, repeatable := false }, rest)
      | ':' :: rest => some ({ opened with modes }, rest)
      | _ => none
  | cs => some (opened, cs)

/-- Is the rest of a pattern well formed? The number bounds the rounds. -/
def isFinished : Nat → State → List Char → Bool
  | 0, _, _ => false
  | rounds + 1, s, cs =>
    let item := { s with repeatable := true }
    match s.modes.skip cs with
    | [] => s.outer.isEmpty
    | '(' :: cs => (group? s cs).any fun r => isFinished rounds r.1 r.2
    | ')' :: cs =>
      match s.outer with
      | [] => false
      | modes :: outer => isFinished rounds { item with modes, outer } cs
    | '|' :: cs => isFinished rounds { s with repeatable := false } cs
    | '\x7b' :: _ => false
    | '[' :: cs =>
      !s.modes.folds &&
        ((classStart? s.modes cs).bind (class? s.modes (cs.length + 1) 0)).any
          (isFinished rounds item)
    | '\\' :: cs =>
      (escaped? s.modes cs).any fun r =>
        (r.1 == .place || !s.modes.folds) && isFinished rounds item r.2
    | '.' :: cs => s.modes.unicode && isFinished rounds item cs
    | c :: cs =>
      if ['*', '+', '?'].contains c then s.repeatable && isFinished rounds s cs
      else (['^', '$'].contains c || !s.modes.folds) && isFinished rounds item cs

/-- Is a text a pattern? -/
def isWellFormed (text : List Char) : Bool := isFinished (text.length + 1) {} text

/-- No pattern starts with a repetition: there is nothing to repeat. -/
theorem isWellFormed_cons_of_mem {c : Char} (h : c ∈ ['*', '+', '?']) (cs : List Char) :
    isWellFormed (c :: cs) = false := by
  simp only [List.mem_cons, List.not_mem_nil, or_false] at h
  rcases h with rfl | rfl | rfl <;> simp [isWellFormed, isFinished, Modes.skip]

end Overseer.Pattern
