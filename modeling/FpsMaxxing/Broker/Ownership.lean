import Mathlib.Data.List.Nodup
import Mathlib.Logic.Relation
import Mathlib.Tactic.Common

/-! The ownership ledger: at most one owner a knob, held through a guard. -/

namespace FpsMaxxing

structure OwnerConflict where
  capabilityId : String
  heldBy : String
  deriving DecidableEq

def OwnerConflict.text (conflict : OwnerConflict) : String :=
  "capability " ++ conflict.capabilityId ++ " is already owned by " ++ conflict.heldBy

structure OwnershipLedger where
  owners : List (String × String)
  deriving DecidableEq

structure OwnershipGuard where
  capabilityId : String
  deriving DecidableEq

namespace OwnershipLedger

def new : OwnershipLedger := ⟨[]⟩

def ownerOf (ledger : OwnershipLedger) (capabilityId : String) : Option String :=
  ledger.owners.lookup capabilityId

def keys (ledger : OwnershipLedger) : List String := ledger.owners.map Prod.fst

def acquire (ledger : OwnershipLedger) (capabilityId owner : String) :
    Except OwnerConflict OwnershipGuard × OwnershipLedger :=
  match ledger.ownerOf capabilityId with
  | some heldBy => (.error ⟨capabilityId, heldBy⟩, ledger)
  | none => (.ok ⟨capabilityId⟩, ⟨(capabilityId, owner) :: ledger.owners⟩)

def release (ledger : OwnershipLedger) (guard : OwnershipGuard) : OwnershipLedger :=
  ⟨ledger.owners.filter fun entry => entry.1 ≠ guard.capabilityId⟩

end OwnershipLedger

end FpsMaxxing
