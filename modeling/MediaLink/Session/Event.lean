import MediaLink.Session.Setup
import MediaLink.Session.State
import MediaLink.Subscription.Batch

/-! What reaches a session from outside, and what it does in turn. -/
namespace MediaLink

/-- Where a provider posts its notifications: made for one connect call. -/
structure ProviderSink where
  provider : Provider
  token : Token
  deriving DecidableEq, Repr

/-- What a binder reports about one binding. -/
inductive BinderNote where
  | bound (provider : Provider)
  | unbound

/-- What a provider reports about one attempt. -/
inductive ProviderNote where
  | accepted (reply : Reply)
  | refused
  | children (batch : Batch)

/-- A notification and the sink that it is posted through. -/
inductive Posting where
  | binder (sink : Token) (note : BinderNote)
  | provider (sink : ProviderSink) (note : ProviderNote)

/-- What waits to be handled. Items carry the number of the request that they answer. -/
inductive Event (κ : Type) where
  | bindRefused (token : Token)
  | binder (sink : Token) (note : BinderNote)
  | provider (sink : ProviderSink) (note : ProviderNote)
  /-- A call failed because the channel is gone. -/
  | lost (token : Token) (fault : RemoteFault)
  | item (request : Nat) (mediaId : String) (item : Option Item) (callback : κ)
  | barrier

namespace Event

def inspect {κ : Type} : Event κ → String
  | .bindRefused token => "BindFailed(" ++ token.text ++ ")"
  | .binder token (.bound _) => "Bound(" ++ token.text ++ ")"
  | .binder token .unbound => "Unbound(" ++ token.text ++ ")"
  | .provider sink (.accepted reply) =>
    "Connected(" ++ sink.token.text ++ ", root=" ++ reply.root ++ ")"
  | .provider sink .refused => "ConnectFailed(" ++ sink.token.text ++ ")"
  | .provider sink (.children batch) =>
    "ChildrenLoaded(" ++ sink.token.text ++ ", parent=" ++ batch.parent ++ ")"
  | .lost token fault => "ServiceLost(" ++ token.text ++ ", " ++ fault.message ++ ")"
  | .item _ mediaId found _ =>
    "ItemLoaded(" ++ mediaId ++ ", found=" ++ Text.ofBool found.isSome ++ ")"
  | .barrier => "Barrier"

end Event

/-- A call to a provider that does not wait for an answer. -/
inductive Call where
  | connect (token : Token)
  | disconnect (token : Token)
  | add (token : Token) (node : String) (options : Option Payload)
  | remove (token : Token) (node : String) (options : Option Payload)

namespace Call

def token : Call → Token
  | .connect t | .disconnect t | .add t _ _ | .remove t _ _ => t

end Call

/-- What the application's connection callback is told. -/
inductive Notice where
  | connected
  | suspended
  | failed
  deriving DecidableEq, Repr

/-- What an application is told that asked for an item: the item, or that nothing was found under
the name. -/
inductive ItemNotice where
  | loaded (item : Item)
  | error (mediaId : String)

def ItemNotice.of (mediaId : String) : Option Item → ItemNotice
  | some item => .loaded item
  | none => .error mediaId

/-- One thing that a session did. -/
inductive Act (κ : Type) where
  | bind (token : Token) (granted : Bool)
  | unbind (token : Token)
  | call (provider : Provider) (call : Call) (failure : Option RemoteFault)
  /-- A provider was asked for an item, and answered. -/
  | lookup (request : Nat) (provider : Provider) (mediaId : String)
    (answer : Except RemoteFault (Option Item))
  /-- The connection callback ran, because of an attempt. -/
  | connection (notice : Notice) (attempt : Option Token)
  | children (callback : κ) (delivery : Delivery)
  | item (callback : κ) (request : Nat) (mediaId : String) (item : Option Item)
  /-- An attempt began. -/
  | started (attempt : Token)
  /-- A reply made the session connected. -/
  | accepted (sink : ProviderSink) (reply : Reply)
  /-- The session was torn down on purpose, in the given phase. -/
  | tornDown (phase : Phase)

/-- What the session sends out to get a channel, and a connection over it. -/
inductive Request where
  | bind (request : BindRequest)
  | connect (provider : Provider) (request : ConnectRequest)

namespace Act

variable {κ : Type}

/-- The request that an act makes. All but the token is in the setting of the session. -/
def request? (setting : Setting) : Act κ → Option Request
  | .bind token _ => some (.bind (setting.bindRequest token))
  | .call provider (.connect token) _ => some (.connect provider (setting.connectRequest token))
  | _ => none

/-- What an act tells the application about an item, and through which callback. -/
def itemNotice? : Act κ → Option (κ × ItemNotice)
  | .item callback _ mediaId found => some (callback, .of mediaId found)
  | _ => none

end Act
end MediaLink
