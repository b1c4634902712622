import Overseer.Number.Shortest
import Overseer.Number.Word
import Overseer.Text.Shown

/-!
# Configuration values

A `Value` is what a configuration source says: a scalar, an array or a dictionary. The entries of
a dictionary are sorted by key and no key occurs twice; `Entries.put` keeps them so.

`Value.merge` lays one value over another. Two dictionaries merge key by key. Two arrays join as
a policy says. In every other case the later value replaces the earlier one entirely, so a scalar
hides a dictionary, and a dictionary that comes after it starts afresh.
-/

namespace Overseer

/-- A configuration value. -/
inductive Value where
  | null
  | bool (b : Bool)
  | unsigned (n : Nat)
  | signed (n : Int)
  | float (x : Binary64)
  /-- A single character, which is read as a text. -/
  | char (c : Char)
  | string (s : String)
  | array (items : List Value)
  | dict (entries : List (String × Value))
  deriving Inhabited, Repr

/-- The entries of a dictionary. -/
abbrev Entries := List (String × Value)

namespace Entries

/-- The value of a key. -/
def find? (key : String) : Entries → Option Value
  | [] => none
  | (k, v) :: es => if k == key then some v else find? key es

/-- The entries with the value of a key set, in order of the keys. -/
def put (key : String) (value : Value) : Entries → Entries
  | [] => [(key, value)]
  | (k, v) :: es =>
    if key == k then (key, value) :: es
    else if key < k then (key, value) :: (k, v) :: es
    else (k, v) :: put key value es

@[simp] theorem find?_nil (key : String) : find? key [] = none := rfl

theorem find?_put_self (key : String) (value : Value) (es : Entries) :
    find? key (put key value es) = some value := by
  induction es with
  | nil => simp [put, find?]
  | cons e es ih =>
    obtain ⟨k, v⟩ := e
    simp only [put]
    split
    · simp [find?]
    · split
      · simp [find?]
      · rename_i h _
        have : (k == key) = false := by
          simp only [beq_eq_false_iff_ne, beq_iff_eq] at h ⊢
          exact fun hk => h hk.symm
        simp [find?, this, ih]

theorem find?_put_of_ne {key other : String} (h : other ≠ key) (value : Value) (es : Entries) :
    find? other (put key value es) = find? other es := by
  have hk : (key == other) = false := by simpa using Ne.symm h
  induction es with
  | nil => simp [put, find?, hk]
  | cons e es ih =>
    obtain ⟨k, v⟩ := e
    simp only [put]
    split
    · rename_i hkk
      rw [beq_iff_eq] at hkk
      subst hkk
      simp [find?, hk]
    · split
      · simp [find?, hk]
      · simp [find?, ih]

end Entries

namespace Value

/-- What becomes of two arrays at the same place. -/
inductive Arrays where
  /-- The later one replaces the earlier one. -/
  | replace
  /-- The items of the later one follow those of the earlier one. -/
  | append
  deriving DecidableEq, Repr

def Arrays.join (policy : Arrays) (earlier later : List Value) : List Value :=
  match policy with
  | .replace => later
  | .append => earlier ++ later

mutual

/-- The value `later` laid over the value `earlier`. -/
def merge (policy : Arrays) (earlier : Value) : Value → Value
  | dict later =>
    match earlier with
    | dict es => dict (mergeEntries policy es later)
    | _ => dict later
  | array later =>
    match earlier with
    | array xs => array (policy.join xs later)
    | _ => array later
  | later => later

/-- The entries `later` laid over the entries `earlier`. -/
def mergeEntries (policy : Arrays) (earlier : Entries) : Entries → Entries
  | [] => earlier
  | (key, value) :: later =>
    let merged := match Entries.find? key earlier with
      | some v => merge policy v value
      | none => value
    mergeEntries policy (Entries.put key merged earlier) later

end

/-- The value at a path of keys. -/
def at? (v : Value) : List String → Option Value
  | [] => some v
  | key :: path =>
    match v with
    | dict es => (Entries.find? key es).bind fun u => at? u path
    | _ => none

/-- A dictionary with one value at the end of a path. -/
def nested : List String → Value → Value
  | [], v => v
  | key :: path, v => dict [(key, nested path v)]

/-- A value below the path that a name spells: its parts between points, up to the first that is
empty. -/
def named (name : String) (v : Value) : Value :=
  nested ((name.splitOn ".").takeWhile fun key => !key.isEmpty) v

/-! ## Texts -/

/-- A decimal number with a point even if it is whole. -/
def pointed (x : Binary64) : String :=
  let s := x.positional
  if x.isFinite && !s.toList.contains '.' then s ++ ".0" else s

/-- An integer that needs more than 64 bits, named by the width that holds it. -/
def wide? : Value → Option String
  | unsigned n =>
    if n < Word.count 64 then none else some ("integer `" ++ toString n ++ "` as u128")
  | signed n =>
    if -(Word.count 63 : Int) ≤ n then none else some ("integer `" ++ toString n ++ "` as i128")
  | _ => none

/-- The kind and the text of a value, as a message about a field of another kind gives them. -/
def found (v : Value) : String :=
  v.wide?.getD <|
    match v with
    | null => "unit"
    | bool b => "bool " ++ Text.flag b
    | unsigned n => "unsigned int `" ++ toString n ++ "`"
    | signed n => "signed int `" ++ toString n ++ "`"
    | float x => "float `" ++ x.positional ++ "`"
    | char c => "string " ++ Text.quoted (String.singleton c)
    | string s => "string " ++ Text.quoted s
    | array _ => "sequence"
    | dict _ => "map"

/-- The kind and the text of a value, as a message about a place in a file gives them. `nothing`
is the word for null. -/
def described (nothing : String) (v : Value) : String :=
  v.wide?.getD <|
    match v with
    | null => nothing
    | bool b => "boolean `" ++ Text.flag b ++ "`"
    | unsigned n => "integer `" ++ toString n ++ "`"
    | signed n => "integer `" ++ toString n ++ "`"
    | float x => "floating point `" ++ pointed x ++ "`"
    | char c => "string " ++ Text.quoted (String.singleton c)
    | string s => "string " ++ Text.quoted s
    | array _ => "sequence"
    | dict _ => "map"

end Value

end Overseer
