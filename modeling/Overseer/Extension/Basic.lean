import Overseer.Extension.Error
import Overseer.Record
import Overseer.Text.Shown

/-!
# Extensions

Tasks that are obtained by name. An extension is either a factory or a group of exported
functions, all four of which are required; which ones are missing is only noticed when the
extension is loaded. `φ` is what a factory is and `ψ` what exported functions are.
-/

namespace Overseer

/-- Which functions an extension exports. -/
structure ExportSet where
  init : Bool := false
  runOnce : Bool := false
  destroy : Bool := false
  userData : Bool := false
  deriving DecidableEq, Repr

namespace ExportSet

/-- The first required function that is not exported. -/
def missing? (e : ExportSet) : Option String :=
  if !e.init then some "init"
  else if !e.runOnce then some "run_once"
  else if !e.destroy then some "destroy"
  else if !e.userData then some "user_data"
  else none

def shown (e : ExportSet) : String :=
  Text.record "ExtensionExports" [
    ("init", Text.flag e.init),
    ("run_once", Text.flag e.runOnce),
    ("destroy", Text.flag e.destroy),
    ("user_data", Text.flag e.userData)]

end ExportSet

/-- How an extension makes a task. -/
inductive Extension (φ ψ : Type) where
  | factory (make : φ)
  | exported (set : ExportSet) (functions : ψ)

/-- Extensions by name, in the order in which the names were first registered. -/
structure ExtensionRegistry (φ ψ : Type) where
  entries : List (String × Extension φ ψ) := []

namespace ExtensionRegistry

variable {φ ψ : Type}

def names (r : ExtensionRegistry φ ψ) : List String := r.entries.map (·.1)

/-- Register an extension, in the place of an earlier one of that name. -/
def insert (r : ExtensionRegistry φ ψ) (name : String) (x : Extension φ ψ) :
    ExtensionRegistry φ ψ :=
  if r.entries.any (·.1 == name) then
    ⟨r.entries.map fun e => if e.1 == name then (name, x) else e⟩
  else ⟨r.entries ++ [(name, x)]⟩

/-- The extension of a name, with everything it must export. -/
def resolve (r : ExtensionRegistry φ ψ) (name : String) :
    Except ExtensionError (Extension φ ψ) :=
  match r.entries.find? (·.1 == name) with
  | none => .error (.notFound name)
  | some (_, .factory make) => .ok (.factory make)
  | some (_, .exported set functions) =>
    match set.missing? with
    | some missing => .error (.missingExport name missing)
    | none => .ok (.exported set functions)

/-- The record of a task that was loaded. -/
def loadedRecord (name task : String) : Record :=
  { level := .debug, target := "tether_core::extension", message := "Loaded extension.",
    fields := [("extension", .text name), ("task", .text task)] }

def shown (r : ExtensionRegistry φ ψ) : String := Text.listed (r.names.map Text.quoted)

end ExtensionRegistry

end Overseer
