import Overseer.Config.Decode

/-!
# The settings of a service

A name, the limits of a pool, tags and a mode. Only the name has to be given.
-/

namespace Overseer

/-- How a service runs. -/
inductive Mode where
  | fast | slow
  deriving DecidableEq, Repr

/-- The limits of the pool of a service. -/
structure PoolLimits where
  capacity : Int := 0
  ratio : Nat := 0
  deriving DecidableEq, Repr

/-- The settings of a service. -/
structure ServiceSettings where
  name : String
  pool : PoolLimits := {}
  tags : List String := []
  mode : Option Mode := none
  deriving DecidableEq, Repr

namespace Mode

def ofName (name : String) : Except Mismatch Mode :=
  match name with
  | "fast" => .ok fast
  | "slow" => .ok slow
  | _ => .error (.variant [] name ["fast", "slow"])

/-- The mode that a value names: a text, but not a single character, or a dictionary whose first
key has no value. -/
def ofValue : Value → Except Mismatch Mode
  | .string name => ofName name
  | .dict ((name, v) :: _) =>
    Value.within name do
      let mode ← ofName name
      match v with
      | .null => return mode
      | v => v.mismatch "unit"
  | .dict [] => (Value.dict []).mismatch "enum"
  | v => v.mismatch "enum Mode"

end Mode

namespace PoolLimits

def set (field : String) (v : Value) (l : PoolLimits) : Except Mismatch PoolLimits :=
  match field with
  | "capacity" => do return { l with capacity := ← v.readInteger .i64 }
  | "ratio" => do return { l with ratio := ← v.readNatural .u8 }
  | _ => .ok l

def ofValue (v : Value) : Except Mismatch PoolLimits :=
  v.readRecord "struct PoolSettings" ["capacity", "ratio"] set {}

end PoolLimits

namespace ServiceSettings

/-- Sets a field. The flag says whether the name has been given. -/
def set (field : String) (v : Value) (s : Bool × ServiceSettings) :
    Except Mismatch (Bool × ServiceSettings) :=
  match field with
  | "name" => do return (true, { s.2 with name := ← v.readString })
  | "pool" => do return (s.1, { s.2 with pool := ← PoolLimits.ofValue v })
  | "tags" => do return (s.1, { s.2 with tags := ← v.readList Value.readString })
  | "mode" =>
    match v with
    | .null => .ok (s.1, { s.2 with mode := none })
    | v => do return (s.1, { s.2 with mode := some (← Mode.ofValue v) })
  | _ => .ok s

/-- The settings that a value gives. -/
def ofValue (v : Value) : Except Mismatch ServiceSettings := do
  let (named, s) ← v.readRecord "struct Settings" ["name", "pool", "tags", "mode"] set
    (false, { name := "" })
  if named then return s else .error (.missing "name")

end ServiceSettings

end Overseer
