import Recital.Playback.State
import Recital.Script.Parser
import Recital.Store.Basic

/-!
# Refusals

Why a player does not do what it is asked.  A playback that goes wrong is no refusal: its report
says so.
-/

namespace Recital

/-- Why a request to a player is refused (`EngineError`). -/
inductive Refusal
  | invalidMove (move : InvalidMove)
  | noScript
  | lineOutOfRange (index count : Nat)
  | labelNotFound (label : String)
  | invalidValue (name reason : String)
  /-- The request makes no sense in the state of the playback. -/
  | wrongState (operation : String) (state : State)
  | noLoader
  | noStore
  | snapshotNotFound (key : String)
  /-- The snapshot was taken from another script. -/
  | snapshotMismatch (expected found : String)
  | loading (cause : LoadError)
  | storing (cause : StoreError)
  | shutDown

namespace Refusal

/-- A refusal in words. -/
def message : Refusal → String
  | invalidMove move => move.message
  | noScript => "no script is loaded"
  | lineOutOfRange index count =>
    "line " ++ Text.ofNat index ++ " is out of range (script has " ++ Text.ofNat count ++ " lines)"
  | labelNotFound label => "label not found: " ++ label
  | invalidValue name reason => "invalid value for " ++ name ++ ": " ++ reason
  | wrongState operation state => "cannot " ++ operation ++ " while " ++ state.name
  | noLoader => "no script loader configured"
  | noStore => "no persistence service configured"
  | snapshotNotFound key => "no saved execution state under key " ++ key
  | snapshotMismatch expected found =>
    "saved state belongs to script " ++ found ++ ", not " ++ expected
  | loading cause => cause.message
  | storing cause => cause.message
  | shutDown => "engine has been shut down"

end Refusal

end Recital
