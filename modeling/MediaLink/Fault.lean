import MediaLink.Phase
import MediaLink.Text.Inspect

/-! Why a call fails: on the provider's side, or on the caller's. -/
namespace MediaLink

/-- A failure reported by the transport or the provider. -/
inductive RemoteFault where
  | transport (message : String)
  | rejected (message : String)
  | disconnected
  deriving DecidableEq, Repr

namespace RemoteFault

def message : RemoteFault → String
  | .transport m => "transport failure: " ++ m
  | .rejected m => "rejected by provider: " ++ m
  | .disconnected => "provider disconnected"

/-- Whether the channel to the provider is gone. A rejection leaves it as it was. -/
def losesConnection : RemoteFault → Bool
  | .rejected _ => false
  | _ => true

def inspect : RemoteFault → String
  | .transport m => Text.inspectRecord "Transport" [("message", Text.inspect m)]
  | .rejected m => Text.inspectRecord "Rejected" [("message", Text.inspect m)]
  | .disconnected => "Disconnected"

end RemoteFault

inductive Fault where
  | configuration (message : String)
  | argument (message : String)
  /-- The operation is not allowed in the phase. -/
  | untimely (operation : String) (phase : Phase)
  | remote (fault : RemoteFault)
  deriving DecidableEq, Repr

namespace Fault

def emptyNode : Fault := .argument "node id must not be empty"
def emptyMedia : Fault := .argument "media id must not be empty"
def emptySessionToken : Fault := .argument "session token must not be empty"
def partialComponent : Fault := .argument "service component needs a package and a class"
def unnamedItem : Fault := .argument "description must have a non-empty media id"
def noComponent : Fault := .configuration "service component is required"
def noCallback : Fault := .configuration "connection callback is required"
def noBinder : Fault := .configuration "transport binder is required"
def emptyClientName : Fault := .configuration "client name must not be empty"

def noRuntime : Fault :=
  .configuration ("no tokio runtime available: there is no reactor running, " ++
    "must be called from the context of a Tokio 1.x runtime")

def message : Fault → String
  | .configuration m => "Configuration error: " ++ m
  | .argument m => "Invalid argument: " ++ m
  | .untimely operation phase => operation ++ "() called while " ++ phase.label
  | .remote fault => "Remote error: " ++ fault.message

def inspect : Fault → String
  | .configuration m => Text.inspectRecord "Config" [("message", Text.inspect m)]
  | .argument m => Text.inspectRecord "InvalidArgument" [("message", Text.inspect m)]
  | .untimely operation phase =>
    Text.inspectRecord "InvalidState"
      [("operation", Text.inspect operation), ("state", phase.inspect)]
  | .remote fault => "Remote(" ++ fault.inspect ++ ")"

def isArgument : Fault → Bool
  | .argument _ => true
  | _ => false

def isUntimely : Fault → Bool
  | .untimely _ _ => true
  | _ => false

def losesConnection : Fault → Bool
  | .remote fault => fault.losesConnection
  | _ => false

/-- The failure on the provider's side that caused this one. -/
def source? : Fault → Option RemoteFault
  | .remote fault => some fault
  | _ => none

end Fault
end MediaLink
