import Overseer.Fault

/-!
# Why an extension cannot be loaded
-/

namespace Overseer

/-- The errors of an extension registry. -/
inductive ExtensionError where
  /-- No extension is known by the name. -/
  | notFound (name : String)
  /-- The extension does not export a function that it must export. -/
  | missingExport (name missing : String)
  /-- The extension failed to make a task. -/
  | load (name : String) (source : Fault)
  deriving DecidableEq, Repr

namespace ExtensionError

def message : ExtensionError → String
  | notFound name => "Extension '" ++ name ++ "' not found."
  | missingExport name missing =>
    "Extension '" ++ name ++ "' is missing required export '" ++ missing ++ "'."
  | load name source => "Extension '" ++ name ++ "' failed to load: " ++ source.text

/-- The texts of the causes, outermost first. -/
def causes : ExtensionError → List String
  | load _ source => source.chain
  | _ => []

/-- The error as a fault of its own. -/
def toFault (e : ExtensionError) : Fault := ⟨e.message, e.causes⟩

end ExtensionError

end Overseer
