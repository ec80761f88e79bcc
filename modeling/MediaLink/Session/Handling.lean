import MediaLink.Session.World

/-! How a session handles events, one at a time, and at most one callback for each. -/
namespace MediaLink.World

variable {κ : Type}

/-- Runs the connection callback. -/
def notify (notice : Notice) (attempt : Option Token) (w : World κ) : World κ :=
  w.act (.connection notice attempt)

/-- Ends an attempt that failed. -/
def failAttempt (w : World κ) : World κ :=
  let attempt := w.session.attempt
  w.release.notify .failed attempt

/-- Goes on only with an event of the attempt that is alive. -/
def ifCurrent (token : Token) (what : String) (go : World κ → World κ) (w : World κ) : World κ :=
  if w.session.isCurrent token then go w
  else if w.session.phase = .disconnected then w
  else w.remark (.staleAttempt token w.session.attempt what)

/-- Goes on only with an event of the binding that is held. -/
def ifHeld (token : Token) (what : String) (go : World κ → World κ) (w : World κ) : World κ :=
  if w.session.holds token then go w
  else w.remark (.staleBinding token w.session.binding what)

/-- Hands the provider a sink and asks it to accept an attempt. -/
def requestConnect (t : Transport) (provider : Provider) (token : Token) (w : World κ) :
    World κ :=
  let w := remark (.bound token)
    { w with session := { w.session with provider := some provider } }
  let answer := t.call provider (.connect token)
  let w := invoke answer provider (.connect token)
    { w with providerSinks := w.providerSinks ++ [⟨provider, token⟩] }
  match answer.failure with
  | some fault => (w.remark (.connectFailed fault)).failAttempt
  | none => w

/-- The channel is up. While suspended it has come back by itself, and a new attempt begins. -/
def onBound (t : Transport) (provider : Provider) (w : World κ) : World κ :=
  match w.session.phase with
  | .connecting =>
    match w.session.attempt with
    | some token => w.requestConnect t provider token
    | none => w
  | .suspended =>
    let (w, token) := w.startAttempt Session.resume
    (w.remark (.restored token)).requestConnect t provider token
  | phase => w.remark (.boundIgnored phase)

/-- Tells a provider about a subscription that it may not know of. -/
def resend (t : Transport) (provider : Provider) (token : Token) (w : World κ)
    (entry : String × Option Payload) : World κ :=
  (w.remark (.resubscribing entry.1 entry.2)).send t provider (.add token entry.1 entry.2)

/-- Tells the provider about all subscriptions. -/
def replay (t : Transport) (w : World κ) : World κ :=
  match w.session.live? with
  | some (provider, token) => w.session.subscriptions.replay.foldl (resend t provider token) w
  | none => w

/-- The provider has accepted, provided that it names a root and a session token. -/
def onAccepted (t : Transport) (sink : ProviderSink) (reply : Reply) (w : World κ) : World κ :=
  if w.session.phase ≠ .connecting then w.remark (.replyIgnored w.session.phase)
  else
    match SessionToken.make reply.sessionToken with
    | .ok token =>
      if reply.root = "" then (w.remark .replyIncomplete).failAttempt
      else
        let session := w.session.complete reply.root token reply.extras
        let w := (act (.accepted sink reply) { w with session }).remark (.connected session.root)
        (w.replay t).notify .connected session.attempt
    | .error _ => (w.remark .replyIncomplete).failAttempt

/-- Binding or connecting was refused. -/
def onRefused (hurdle : Hurdle) (w : World κ) : World κ :=
  if w.session.phase ≠ .connecting then w.remark (.failureIgnored hurdle w.session.phase)
  else (w.remark (.attemptFailed hurdle)).failAttempt

/-- The channel is gone: an attempt fails, a connection is suspended. -/
def onLost (w : World κ) : World κ :=
  match w.session.phase with
  | .connecting => (w.remark .lostWhileConnecting).failAttempt
  | .connected =>
    let attempt := w.session.attempt
    notify .suspended attempt
      { w.remark .suspended with session := w.session.suspend }
  | phase => w.remark (.unboundIgnored phase)

/-- Children go to the subscription that the pushed options denote. -/
def onChildren (batch : Batch) (w : World κ) : World κ :=
  match w.session.subscriptions.find? batch.parent batch.options with
  | some (key, callback) => w.act (.children callback (batch.deliver key))
  | none => w.remark (.unclaimed batch.parent batch.options)

/-- The effect of one event. -/
def handle (t : Transport) (w : World κ) : Event κ → World κ
  | .bindRefused token => w.ifCurrent token "bind" (onRefused .bind)
  | .binder token (.bound provider) => w.ifHeld token "bound" (onBound t provider)
  | .binder token .unbound => w.ifHeld token "unbound" onLost
  | .provider sink (.accepted reply) =>
    w.ifCurrent sink.token "connect" (onAccepted t sink reply)
  | .provider sink .refused => w.ifCurrent sink.token "connect" (onRefused .connect)
  | .provider sink (.children batch) =>
    w.ifCurrent sink.token "load_children" (onChildren batch)
  | .lost token fault =>
    w.ifCurrent token "service_lost" fun w => (w.remark (.channelLost token fault)).onLost
  | .item request mediaId item callback => w.act (.item callback request mediaId item)
  | .barrier => w

/-- Whether anything can still post: somebody was given a sink, or a lookup is under way. -/
def hasPosters (w : World κ) : Bool :=
  !w.binderSinks.isEmpty || !w.providerSinks.isEmpty || !w.lookups.isEmpty

/-- One turn of the loop when it waits: it takes the oldest event. It ends when the session is
gone and an event arrives that it would have handled, or no event can arrive any more. -/
def awake (t : Transport) (w : World κ) : World κ :=
  match w.queue with
  | [] =>
    if w.handles = 0 ∧ w.hasPosters = false then
      remark .loopEnded { w with loop := .closed }
    else w
  | event :: rest =>
    if w.handles = 0 then
      remark .loopEnded (remark (.discarded event) { w with loop := .closed, queue := [] })
    else
      handle t (remark (.dispatching event) { w with loop := .handling, queue := rest }) event

/-- One turn of the loop. Taking hold of the session, the work under its lock and the start of the
callback are one step: no call of another thread falls between them. The event is handled until
`finish`, and calls from the callback, or of others while it runs, come before that. -/
def turn (t : Transport) (w : World κ) : World κ :=
  match w.loop with
  | .unstarted => awake t (remark .loopStarted { w with loop := .waiting })
  | .waiting => awake t w
  | .handling | .closed => w

/-- The event has been handled, and its callback has returned. -/
def finish (t : Transport) (w : World κ) : World κ :=
  if w.loop = .handling then
    let freed := { w with loop := .waiting }
    if w.handles = 0 then freed.abandon t else freed
  else w

/-- A lookup is answered. The answer goes through the queue, whatever has become of the session. -/
def answer (result : Except RemoteFault (Option Item)) (index : Nat) (w : World κ) : World κ :=
  match w.lookups[index]? with
  | none => w
  | some l =>
    let w := act (.lookup l.request l.provider l.mediaId result)
      { w with lookups := w.lookups.eraseIdx index }
    let (w, found) := match result with
      | .ok item => (w, item)
      | .error fault => (w.remark (.lookupFailed l.mediaId fault), none)
    if w.loop = .closed then w
    else { w with queue := w.queue ++ [.item l.request l.mediaId found l.callback] }

end MediaLink.World
