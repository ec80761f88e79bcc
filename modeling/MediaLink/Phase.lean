/-! Where a session stands between its application and its provider. -/
namespace MediaLink

inductive Phase where
  | disconnected
  /-- Binding, or waiting for the provider to accept. -/
  | connecting
  | connected
  /-- The provider went away although nobody disconnected. -/
  | suspended
  deriving DecidableEq, Repr, Inhabited

namespace Phase

def label : Phase → String
  | .disconnected => "CONNECT_STATE_DISCONNECTED"
  | .connecting => "CONNECT_STATE_CONNECTING"
  | .connected => "CONNECT_STATE_CONNECTED"
  | .suspended => "CONNECT_STATE_SUSPENDED"

def inspect : Phase → String
  | .disconnected => "Disconnected"
  | .connecting => "Connecting"
  | .connected => "Connected"
  | .suspended => "Suspended"

end Phase
end MediaLink
