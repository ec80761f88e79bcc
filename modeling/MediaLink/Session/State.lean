import MediaLink.Identity
import MediaLink.Reply
import MediaLink.Subscription.Registry

/-! The state of a session and its transitions. -/
namespace MediaLink

/-- A provider that a binder can hand out. -/
structure Provider where
  index : Nat
  deriving DecidableEq, Repr

/-- Everything but the subscriptions belongs to a connection and goes with it. The binding may
outlive the attempt: while suspended the channel stays bound and may come back. -/
structure Session (κ : Type) where
  phase : Phase := .disconnected
  /-- The attempt that is alive. Notifications of any other attempt are stale. -/
  attempt : Option Token := none
  /-- The binding to release in the end. Notifications of any other binding are stale. -/
  binding : Option Token := none
  provider : Option Provider := none
  root : Option String := none
  sessionToken : Option SessionToken := none
  extras : Option Payload := none
  subscriptions : Registry κ := .empty

namespace Session

variable {κ : Type}

/-- Whether the token names the attempt that is alive. -/
def isCurrent (s : Session κ) (token : Token) : Bool := s.attempt == some token

/-- Whether the token names the binding that is held. -/
def holds (s : Session κ) (token : Token) : Bool := s.binding == some token

/-- A new attempt over a new binding. -/
def begin (s : Session κ) (token : Token) : Session κ :=
  { s with phase := .connecting, attempt := some token, binding := some token }

/-- A new attempt over the binding that is held. -/
def resume (s : Session κ) (token : Token) : Session κ :=
  { s with phase := .connecting, attempt := some token }

/-- The provider has accepted. -/
def complete (s : Session κ) (root : String) (sessionToken : SessionToken)
    (extras : Option Payload) : Session κ :=
  { s with phase := .connected, root := some root, sessionToken := some sessionToken, extras }

/-- The provider went away; the binding stays. -/
def suspend (s : Session κ) : Session κ :=
  { s with phase := .suspended, attempt := none, provider := none }

/-- Back to the start, with nothing left but the subscriptions. -/
def reset (s : Session κ) : Session κ := { subscriptions := s.subscriptions }

/-- Fails unless connected. -/
def whenConnected (s : Session κ) (operation : String) (value : α) : Except Fault α :=
  if s.phase = .connected then .ok value else .error (.untimely operation s.phase)

/-- The provider and the attempt to name in a call to it; none unless connected. -/
def live? (s : Session κ) : Option (Provider × Token) :=
  if s.phase = .connected then
    match s.provider, s.attempt with
    | some provider, some token => some (provider, token)
    | _, _ => none
  else none

def inspect (s : Session κ) : String :=
  Text.inspectRecord "SessionState" [
    ("state", Text.inspect s.phase.label),
    ("token", Text.inspectOption Token.inspect s.attempt),
    ("bound", Text.inspectOption Token.inspect s.binding),
    ("has_service", Text.ofBool s.provider.isSome),
    ("root_id", Text.inspectOption Text.inspect s.root),
    ("session_token", Text.inspectOption SessionToken.inspect s.sessionToken),
    ("extras", Payload.inspectOption s.extras),
    ("subscriptions", s.subscriptions.inspect)]

end Session
end MediaLink
