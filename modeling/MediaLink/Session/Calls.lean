import MediaLink.Session.World

/-! What an application can ask of a session. A call that fails changes nothing. -/
namespace MediaLink.World

variable {κ : Type}

/-- Asks the binder for a channel. A refusal is reported later, by the loop. -/
def requestBinding (t : Transport) (token : Token) (w : World κ) : World κ :=
  let answer := t.bind token
  let w := ({ w with binderSinks := w.binderSinks ++ [token] }.act
    (.bind token answer.granted)).postAll answer.posts
  if answer.granted then w
  else (w.remark .bindRefused).enqueue (.bindRefused token)

/-- A new attempt over a new binding. -/
def attemptConnect (t : Transport) (w : World κ) : World κ :=
  let (w, token) := w.startAttempt Session.begin
  (w.requestBinding t token).remark (.connecting token)

/-- Starts to connect. While suspended this gives up the binding that is still held. -/
def connect (t : Transport) (w : World κ) : Except Fault (World κ) :=
  match w.session.phase with
  | .disconnected => .ok (w.attemptConnect t)
  | .suspended => .ok ((w.remark .releasing).release.attemptConnect t)
  | phase => .error (.untimely "connect" phase)

def disconnect (t : Transport) (w : World κ) : World κ := w.tearDown t

/-- Subscribes to a node. An equal subscription keeps its place and gets the new callback; a
connected provider is told the options that were given. -/
def subscribe (t : Transport) (node : String) (options : Option Payload) (callback : κ)
    (w : World κ) : Except Fault (World κ) :=
  if node = "" then .error .emptyNode
  else
    let known := w.session.subscriptions.contains node options
    let subscriptions := w.session.subscriptions.insert node ⟨options⟩ callback
    let w := remark (.subscribed node known options)
      { w with session := { w.session with subscriptions } }
    match w.session.live? with
    | some (provider, token) => .ok (w.send t provider (.add token node options))
    | none => .ok w

/-- Gives up a subscription, if there is one. A connected provider is told the stored options. -/
def unsubscribe (t : Transport) (node : String) (options : Option Payload) (w : World κ) :
    Except Fault (World κ) :=
  if node = "" then .error .emptyNode
  else
    match w.session.subscriptions.find? node options with
    | none => .ok (w.remark (.notSubscribed node))
    | some (key, _) =>
      let subscriptions := w.session.subscriptions.erase node options
      let w := remark (.unsubscribed node key.options)
        { w with session := { w.session with subscriptions } }
      match w.session.live? with
      | some (provider, token) => .ok (w.send t provider (.remove token node key.options))
      | none => .ok w

/-- Asks for one item. The answer always comes later; without a connection it is none. -/
def getItem (mediaId : String) (callback : κ) (w : World κ) : Except Fault (World κ) :=
  if mediaId = "" then .error .emptyMedia
  else
    let request := w.requests + 1
    let counted := { w with requests := request }
    match w.session.live? with
    | some (provider, _) =>
      .ok { counted with lookups := w.lookups ++ [⟨request, provider, mediaId, callback⟩] }
    | none =>
      .ok ((counted.remark (.notConnected mediaId)).enqueue
        (.item request mediaId none callback))

def root (w : World κ) : Except Fault String :=
  w.session.whenConnected "root" (w.session.root.getD "")

def sessionToken (w : World κ) : Except Fault SessionToken :=
  (w.session.whenConnected "session_token" w.session.sessionToken).bind fun
    | some token => .ok token
    | none => .error (.untimely "session_token" w.session.phase)

def extras (w : World κ) : Except Fault (Option Payload) :=
  w.session.whenConnected "extras" w.session.extras

def component (w : World κ) : Except Fault Component :=
  w.session.whenConnected "service_component" w.setting.component

def isConnected (w : World κ) : Bool := w.session.phase == .connected

/-- Remarks on everything the session knows. -/
def dump (w : World κ) : World κ := w.remark (.snapshot w.session)

/-- Puts a barrier into the queue, behind everything that is there. -/
def barrier (w : World κ) : World κ := w.enqueue .barrier

def cloneHandle (w : World κ) : World κ := { w with handles := w.handles + 1 }

/-- Gives up a handle. With the last one the session ends, unless the loop still holds it. -/
def dropHandle (t : Transport) (w : World κ) : World κ :=
  let dropped := { w with handles := w.handles - 1 }
  if w.handles = 1 ∧ w.loop ≠ .handling then dropped.abandon t else dropped

def inspect (w : World κ) : String :=
  Text.inspectPartial "MediaBrowser"
    [("component", w.setting.component.inspect), ("state", w.session.phase.inspect)]

end MediaLink.World
