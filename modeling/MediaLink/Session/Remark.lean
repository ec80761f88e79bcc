import MediaLink.Session.Event

/-! Remarks that a session makes about its work, for whoever reads its log. -/
namespace MediaLink

/-- What an attempt failed at. -/
inductive Hurdle where
  | bind
  | connect
  deriving DecidableEq, Repr

inductive Remark (κ : Type) where
  | created
  | releasing
  | bindRefused
  | connecting (token : Token)
  | snapshot (session : Session κ)
  | subscribed (node : String) (replaced : Bool) (options : Option Payload)
  | notSubscribed (node : String)
  | unsubscribed (node : String) (options : Option Payload)
  | notConnected (mediaId : String)
  | lookupFailed (mediaId : String) (fault : RemoteFault)
  | eventDropped (event : Event κ)
  | disconnectFailed (fault : RemoteFault)
  | disconnected (previous : Phase)
  | callFailed (call : Call) (fault : RemoteFault)
  | staleAttempt (token : Token) (current : Option Token) (what : String)
  | staleBinding (token : Token) (current : Option Token) (what : String)
  | dispatching (event : Event κ)
  | restored (token : Token)
  | boundIgnored (phase : Phase)
  | bound (token : Token)
  | connectFailed (fault : RemoteFault)
  | replyIgnored (phase : Phase)
  | replyIncomplete
  | connected (root : Option String)
  | resubscribing (node : String) (options : Option Payload)
  | failureIgnored (hurdle : Hurdle) (phase : Phase)
  | attemptFailed (hurdle : Hurdle)
  | channelLost (token : Token) (fault : RemoteFault)
  | lostWhileConnecting
  | suspended
  | unboundIgnored (phase : Phase)
  | unclaimed (parent : String) (options : Option Payload)
  | loopStarted
  | discarded (event : Event κ)
  | loopEnded
  | binderUnheard (token : Token)
  | providerUnheard (token : Token) (event : Event κ)

end MediaLink
