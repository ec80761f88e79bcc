import MediaLink.Session.Remark
import MediaLink.Session.Setup

/-! The log records that remarks are written as. -/
namespace MediaLink

inductive Level where
  | trace
  | debug
  | info
  | warn
  deriving DecidableEq, Repr

def Level.text : Level → String
  | .trace => "TRACE"
  | .debug => "DEBUG"
  | .info => "INFO"
  | .warn => "WARN"

structure Record where
  level : Level
  message : String
  fields : List (String × String) := []

namespace Hurdle

def text : Hurdle → String
  | .bind => "bind"
  | .connect => "connect"

end Hurdle

namespace Call

/-- The name of the operation that a call carries out. -/
def operation : Call → String
  | .connect _ => "connect"
  | .disconnect _ => "disconnect"
  | .add .. => "add_subscription"
  | .remove .. => "remove_subscription"

end Call

namespace Remark

variable {κ : Type}

def record (setting : Setting) (r : Remark κ) : Record :=
  let component := ("component", setting.component.text)
  let token (t : Token) := ("token", t.text)
  let options (o : Option Payload) := ("options", Payload.inspectOption o)
  let current (t : Option Token) := ("current", Text.inspectOption Token.inspect t)
  match r with
  | .created => ⟨.debug, "MediaBrowser created", [component]⟩
  | .releasing => ⟨.debug, "Releasing suspended binding before reconnect", [component]⟩
  | .bindRefused => ⟨.warn, "Failed binding to service", [component]⟩
  | .connecting t => ⟨.info, "Connecting", [component, token t]⟩
  | .snapshot session =>
    ⟨.debug, "MediaBrowser dump", [component, ("client_name", setting.clientName),
      ("root_hints", Payload.inspectOption setting.rootHints), ("state", session.inspect)]⟩
  | .subscribed node replaced o =>
    ⟨.debug, "Subscribed",
      [("node_id", node), ("replaced", Text.ofBool replaced), options o]⟩
  | .notSubscribed node => ⟨.trace, "Unsubscribe for unknown subscription", [("node_id", node)]⟩
  | .unsubscribed node o => ⟨.debug, "Unsubscribed", [("node_id", node), options o]⟩
  | .notConnected id =>
    ⟨.info, "Not connected, unable to retrieve the MediaItem", [("media_id", id)]⟩
  | .lookupFailed id fault =>
    ⟨.warn, "Remote error getting media item", [("media_id", id), ("error", fault.message)]⟩
  | .eventDropped e => ⟨.trace, "Event loop closed, event dropped", [("event", e.inspect)]⟩
  | .disconnectFailed fault =>
    ⟨.warn, "Error during disconnect, ignoring", [component, ("error", fault.message)]⟩
  | .disconnected phase => ⟨.info, "Disconnected", [component, ("from", phase.label)]⟩
  | .callFailed call fault =>
    ⟨.warn, "Provider call failed",
      [("operation", call.operation), ("error", fault.message)]⟩
  | .staleAttempt t now what =>
    ⟨.debug, "Dropping event from stale connection", [token t, current now, ("event", what)]⟩
  | .staleBinding t now what =>
    ⟨.debug, "Dropping event from released binding",
      [("bound", t.text), current now, ("event", what)]⟩
  | .dispatching e => ⟨.trace, "Dispatching", [("event", e.inspect)]⟩
  | .restored t => ⟨.info, "Channel restored, reconnecting", [component, token t]⟩
  | .boundIgnored phase => ⟨.warn, "Bound while not connecting, ignoring", [("state", phase.label)]⟩
  | .bound t => ⟨.debug, "Service bound, connecting", [component, token t]⟩
  | .connectFailed fault => ⟨.warn, "Error during connect", [component, ("error", fault.message)]⟩
  | .replyIgnored phase =>
    ⟨.warn, "Connect reply while not connecting, ignoring", [("state", phase.label)]⟩
  | .replyIncomplete => ⟨.warn, "Connect reply without root or session token", [component]⟩
  | .connected root =>
    ⟨.info, "Connected", [component, ("root", Text.inspectOption Text.inspect root)]⟩
  | .resubscribing node o => ⟨.debug, "Re-subscribing", [("node_id", node), options o]⟩
  | .failureIgnored hurdle phase =>
    ⟨.warn, "Connect failure while not connecting, ignoring",
      [("stage", hurdle.text), ("state", phase.label)]⟩
  | .attemptFailed hurdle => ⟨.warn, "Connection failed", [component, ("stage", hurdle.text)]⟩
  | .channelLost t fault =>
    ⟨.debug, "Treating failed call as lost channel", [token t, ("error", fault.message)]⟩
  | .lostWhileConnecting => ⟨.warn, "Channel lost while connecting", [component]⟩
  | .suspended => ⟨.info, "Connection suspended", [component]⟩
  | .unboundIgnored phase =>
    ⟨.debug, "Unbound in inactive state, ignoring", [("state", phase.label)]⟩
  | .unclaimed parent o =>
    ⟨.debug, "Children for unsubscribed node, dropping", [("parent_id", parent), options o]⟩
  | .loopStarted => ⟨.debug, "Event loop started", []⟩
  | .discarded e => ⟨.trace, "Browser dropped, discarding event", [("event", e.inspect)]⟩
  | .loopEnded => ⟨.debug, "Event loop terminated", []⟩
  | .binderUnheard t => ⟨.trace, "Browser gone, binder event dropped", [token t]⟩
  | .providerUnheard t e =>
    ⟨.trace, "Browser gone, service event dropped", [token t, ("event", e.inspect)]⟩

end Remark
end MediaLink
