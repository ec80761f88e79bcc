import MediaLink.Identity

/-! What a session has to be given before it can exist. -/
namespace MediaLink

/-- What stays the same over the life of a session. -/
structure Setting where
  component : Component
  clientName : String
  rootHints : Option Payload

/-- What a binder is given to go by. -/
structure BindRequest where
  component : Component
  token : Token
  deriving DecidableEq, Repr

/-- What a provider is given to go by. -/
structure ConnectRequest where
  clientName : String
  rootHints : Option Payload
  token : Token

namespace Setting

def bindRequest (s : Setting) (token : Token) : BindRequest := ⟨s.component, token⟩

def connectRequest (s : Setting) (token : Token) : ConnectRequest :=
  ⟨s.clientName, s.rootHints, token⟩

end Setting

/-- What has been given so far. -/
structure Setup where
  component : Option Component := none
  clientName : Option String := none
  rootHints : Option Payload := none
  hasCallback : Bool := false
  hasBinder : Bool := false
  /-- Whether there is something to run the session's loop on. -/
  hasRuntime : Bool := false

namespace Setup

/-- How a client calls itself that gives no name. -/
def defaultName : String := "media-browser"

/-- The setting, or the first thing that is missing. -/
def build (s : Setup) : Except Fault Setting :=
  match s.component with
  | none => .error .noComponent
  | some component =>
    if !s.hasCallback then .error .noCallback
    else if !s.hasBinder then .error .noBinder
    else
      let name := s.clientName.getD defaultName
      if name = "" then .error .emptyClientName
      else if !s.hasRuntime then .error .noRuntime
      else .ok ⟨component, name, s.rootHints⟩

def inspect (s : Setup) : String :=
  Text.inspectPartial "MediaBrowserBuilder" [
    ("component", Text.inspectOption Component.inspect s.component),
    ("client_name", Text.inspectOption Text.inspect s.clientName),
    ("root_hints", Payload.inspectOption s.rootHints),
    ("has_callback", Text.ofBool s.hasCallback),
    ("has_binder", Text.ofBool s.hasBinder)]

end Setup
end MediaLink
