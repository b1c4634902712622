import Overseer.Config.Value

/-!
# Dictionaries while they are read

Two keys of a dictionary below the top of a file have a meaning of their own. What is at
`Draft.identityKey` has to be a number and does not become an entry. What is at `Draft.wholeKey`
takes the place of the whole dictionary.
-/

namespace Overseer

/-- What has been read of a dictionary. -/
structure Draft where
  entries : Entries := []
  /-- The value that takes the place of the dictionary. -/
  whole : Option Value := none
  deriving Inhabited, Repr

namespace Draft

/-- The key of the number that identifies a value. -/
def identityKey : String := "___figment_value_id"

/-- The key of the value that stands for the dictionary. -/
def wholeKey : String := "___figment_value_value"

/-- What is asked for at `identityKey`. -/
def identityKind : String := "a 64-bit metadata id integer"

/-- Reads what is at one more key, with a reader of such numbers and one of values. -/
def read {m : Type → Type} [Monad m] (identity : m Unit) (value : m Value) (key : String)
    (d : Draft) : m Draft := do
  if key == identityKey then
    identity
    return d
  else if key == wholeKey then return { d with whole := some (← value) }
  else return { d with entries := Entries.put key (← value) d.entries }

/-- The value of a dictionary that has been read. -/
def finish (d : Draft) : Value := d.whole.getD (.dict d.entries)

end Draft

end Overseer
