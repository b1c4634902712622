import Overseer.Extension.Error

/-!
# Why a supervised set refuses
-/

namespace Overseer

/-- The errors of a supervised set. -/
inductive SupervisionError where
  /-- A set needs a name. -/
  | invalidName (name : String)
  /-- The task is already registered. -/
  | duplicateRegistration (task : String)
  /-- Another stage already holds the position. -/
  | duplicateOrder (order : Nat)
  /-- The task is not registered. -/
  | notRegistered (task : String)
  /-- A task failed to initialize. -/
  | initFailed (task : String) (source : Fault)
  /-- An earlier startup failed, so the set will not start. -/
  | initAborted
  /-- The set has been destroyed. -/
  | terminated
  /-- An extension could not be loaded. -/
  | extensionLoad (source : ExtensionError)
  deriving DecidableEq, Repr

namespace SupervisionError

def message : SupervisionError → String
  | invalidName name => "Invalid name '" ++ name ++ "'. Names must not be empty."
  | duplicateRegistration task => "Task '" ++ task ++ "' is already registered."
  | duplicateOrder order => "A stage is already registered at order " ++ toString order ++ "."
  | notRegistered task => "Task '" ++ task ++ "' is not registered."
  | initFailed task source => "Task '" ++ task ++ "' failed to initialize: " ++ source.text
  | initAborted => "Initialization already failed. Supervisor will not start."
  | terminated => "Supervisor has been destroyed."
  | extensionLoad source => "Failed to load extension: " ++ source.message

/-- The texts of the causes, outermost first. -/
def causes : SupervisionError → List String
  | initFailed _ source => source.chain
  | extensionLoad source => source.toFault.chain
  | _ => []

/-- The error as a fault of its own. -/
def toFault (e : SupervisionError) : Fault := ⟨e.message, e.causes⟩

end SupervisionError

end Overseer
