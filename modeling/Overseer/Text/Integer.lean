import Overseer.Number.Word
import Overseer.Text.Digits

/-!
# Reading integers

A decimal integer with an optional sign, and nothing else around it.
-/

namespace Overseer.Text

/-- A decimal integer with an optional sign. -/
def integer? (s : String) : Option Int :=
  match s.toList with
  | '-' :: cs => (natural? 10 cs).map fun n => -(n : Int)
  | '+' :: cs => (natural? 10 cs).map fun n => (n : Int)
  | cs => (natural? 10 cs).map fun n => (n : Int)

/-- A signed integer of 64 bits. -/
def int64? (s : String) : Option Int :=
  (integer? s).filter (Word.isSigned 63)

/-- Does `part` occur in a list of characters? -/
def occursAmong (part : List Char) : List Char → Bool
  | [] => part.isEmpty
  | c :: cs => part.isPrefixOf (c :: cs) || occursAmong part cs

/-- Does `part` occur in `s`? -/
def occursIn (part s : String) : Bool := occursAmong part.toList s.toList

end Overseer.Text
