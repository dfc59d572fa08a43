import StakeKeeper.Minipool
import StakeKeeper.TaskError

/-!
Storing a value that was read from a minipool's contract in the minipool's record. A step has no
outcome when a status time leaves the range of instants.
-/
namespace StakeKeeper
set_option autoImplicit false

/-- Decoding that may fail, or that may have no outcome. -/
abbrev Decoding (α : Type) := ExceptT QueryError Option α

namespace MinipoolRecord

def decodeStatus (v : ReadValue) : Except CallError MinipoolStatus := do
  let code ← v.asUint8
  match MinipoolStatus.ofCode? code with
  | some status => pure status
  | none => throw (.value (.unknownStatus code))

/-- The record with a field set, or why the value does not fit; none if the field's time is out of
range. -/
def withField (r : MinipoolRecord) (field : MinipoolField) (v : ReadValue) :
    Except CallError (Option MinipoolRecord) :=
  match field with
  | .known => v.asBool.map fun b => some { r with known := b }
  | .status => (decodeStatus v).map fun s => some { r with status := s }
  | .statusTime => v.asUint64.map fun secs =>
      (Instant.ofSecs? secs).map fun t => { r with statusTime := t }
  | .pubkey => v.asPubKey.map fun pk => some { r with pubkey := pk }
  | .credentials => v.asRoot.map fun c => some { r with credentials := c }

def setField (r : MinipoolRecord) (field : MinipoolField) (v : ReadValue) :
    Decoding MinipoolRecord :=
  match r.withField field v with
  | .ok updated => ExceptT.lift updated
  | .error reason => throw (.decode r.address field reason)

def setFields (r : MinipoolRecord) : List (MinipoolField × ReadValue) → Decoding MinipoolRecord
  | [] => pure r
  | (field, v) :: rest => do
    let updated ← r.setField field v
    updated.setFields rest

end MinipoolRecord

end StakeKeeper
