import FpsMaxxing.Broker.Ownership
import FpsMaxxing.Contracts.Ipc
import FpsMaxxing.Host.ControlPlane

/-! The request handler at the trusted end of the socket. -/

namespace FpsMaxxing

open Effects

def maxEchoedBytes : ℕ := 120

def cutAtBoundary : ℕ → List Char → List Char
  | _, [] => []
  | limit, c :: cs =>
    if c.utf8Size ≤ limit then c :: cutAtBoundary (limit - c.utf8Size) cs else []

def echoed (text : String) : String :=
  if text.utf8ByteSize ≤ maxEchoedBytes then text
  else String.ofList (cutAtBoundary maxEchoedBytes text.toList) ++ "..."

def isWhiteSpace (c : Char) : Bool :=
  let n := c.toNat
  0x9 ≤ n && n ≤ 0xD || n == 0x20 || n == 0x85 || n == 0xA0 || n == 0x1680 ||
    0x2000 ≤ n && n ≤ 0x200A || n == 0x2028 || n == 0x2029 || n == 0x202F || n == 0x205F ||
    n == 0x3000

def isBlank (text : String) : Bool := text.toList.all isWhiteSpace

structure BrokerService where
  plane : ControlPlane
  catalog : List String

def BrokerService.new (plane : ControlPlane) : BrokerService where
  plane := plane
  catalog := plane.manifest.capabilities.map fun capability => capability.id

def wireError : ControlPlaneError → BrokerResponse
  | .unknownCapability id =>
    .refused .unknownCapability (echoed (ControlPlaneError.unknownCapability id).text)
  | .policyDenied message =>
    .refused .policyDenied (echoed (ControlPlaneError.policyDenied message).text)
  | error => .refused .lifecycleFailed ("lifecycle failed: " ++ error.kind)

def LifecycleReport.ofResult (result : LifecycleResult) : LifecycleReport where
  providerId := result.providerId
  preview := result.preview
  verified := result.verified
  rolledBack := result.rolledBack

def lifecycleResponse : Except ControlPlaneError LifecycleResult → BrokerResponse
  | .ok result => .lifecycle (.ofResult result)
  | .error error => wireError error

namespace BrokerService

variable (service : BrokerService) (ledger : OwnershipLedger)

def discover : BrokerResponse := .capabilities service.plane.manifest

def runLifecycle (owner : Option String) (change : Option ChangeRequest) :
    Program Calls (BrokerResponse × OwnershipLedger) :=
  match owner.filter fun owner => !isBlank owner with
  | none => return (.refused .malformed "run-lifecycle requires a non-empty owner", ledger)
  | some owner =>
    match change with
    | none => return (.refused .malformed "run-lifecycle requires a change", ledger)
    | some change =>
      if ¬ service.catalog.contains change.capabilityId then
        return (.refused .unknownCapability
          ("capability " ++ echoed change.capabilityId ++ " is not in the catalog"), ledger)
      else
        match ledger.acquire change.capabilityId owner with
        | (.error conflict, ledger) =>
          return (.refused .ownerConflict (echoed conflict.text), ledger)
        | (.ok guard, ledger) => do
          let outcome ← (service.plane.runLifecycle change).run
          -- the guard is dropped with the frame, whatever the outcome
          return (lifecycleResponse outcome, ledger.release guard)

def handle (request : BrokerRequest) : Program Calls (BrokerResponse × OwnershipLedger) :=
  match request.op with
  | .discover => return (service.discover, ledger)
  | .runLifecycle => service.runLifecycle ledger request.owner request.change

def handleAll : OwnershipLedger → List BrokerRequest →
    Program Calls (List BrokerResponse × OwnershipLedger)
  | ledger, [] => return ([], ledger)
  | ledger, request :: requests => do
    let (response, ledger) ← service.handle ledger request
    let (responses, ledger) ← handleAll ledger requests
    return (response :: responses, ledger)

end BrokerService

end FpsMaxxing
