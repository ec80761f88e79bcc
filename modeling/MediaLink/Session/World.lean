import MediaLink.Session.Remark
import MediaLink.Session.Setup

/-! A session together with what surrounds it: its queue, its sinks, its handles and its record. -/
namespace MediaLink

/-- The loop that handles events. While it handles one it keeps the session alive. -/
inductive Loop where
  | unstarted
  | waiting
  | handling
  | closed
  deriving DecidableEq, Repr

/-- An item that was asked for and not answered yet. -/
structure Lookup (κ : Type) where
  request : Nat
  provider : Provider
  mediaId : String
  callback : κ

structure World (κ : Type) where
  setting : Setting
  session : Session κ := {}
  /-- Events that wait, oldest first. -/
  queue : List (Event κ) := []
  /-- Lookups that are under way, oldest first. -/
  lookups : List (Lookup κ) := []
  /-- The sinks handed to the binder, one for each binding, oldest first. -/
  binderSinks : List Token := []
  /-- The sinks handed to providers, one for each connect call, oldest first. -/
  providerSinks : List ProviderSink := []
  /-- How many handles the application holds. -/
  handles : Nat := 1
  loop : Loop := .unstarted
  /-- How many tokens have been made. -/
  tokens : Nat := 0
  /-- How many items have been asked for. -/
  requests : Nat := 0
  /-- What the session did, newest first. -/
  history : List (Act κ) := []
  /-- What the session remarked, newest first. -/
  remarks : List (Remark κ) := []

/-- The answer to a bind request. What is posted is posted before the answer is given. -/
structure BindAnswer where
  granted : Bool
  posts : List Posting := []

/-- The answer to a call. What is posted is posted before the call returns. -/
structure CallAnswer where
  failure : Option RemoteFault := none
  posts : List Posting := []

/-- How the binder and the providers answer during one step. -/
structure Transport where
  bind : Token → BindAnswer
  call : Provider → Call → CallAnswer

namespace World

variable {κ : Type}

def act (a : Act κ) (w : World κ) : World κ := { w with history := a :: w.history }

def remark (r : Remark κ) (w : World κ) : World κ := { w with remarks := r :: w.remarks }

/-- A new world around a session that nobody has used yet. -/
def create (setting : Setting) : World κ := remark .created { setting }

/-- Puts an event into the queue; if the loop is closed, only remarks on it. -/
def offer (e : Event κ) (unheard : Remark κ) (w : World κ) : World κ :=
  if w.loop = .closed then w.remark unheard else { w with queue := w.queue ++ [e] }

/-- Puts an event of the session's own into the queue. -/
def enqueue (e : Event κ) (w : World κ) : World κ := w.offer e (.eventDropped e)

/-- Posts a notification. A sink that was never handed out cannot be used. -/
def post (w : World κ) : Posting → World κ
  | .binder sink note =>
    if sink ∈ w.binderSinks then w.offer (.binder sink note) (.binderUnheard sink) else w
  | .provider sink note =>
    if sink ∈ w.providerSinks then
      w.offer (.provider sink note) (.providerUnheard sink.token (.provider sink note))
    else w

def postAll (posts : List Posting) (w : World κ) : World κ := posts.foldl post w

/-- Makes a call to a provider, and puts it on record with its outcome. -/
def invoke (answer : CallAnswer) (provider : Provider) (call : Call) (w : World κ) : World κ :=
  (w.act (.call provider call answer.failure)).postAll answer.posts

/-- Deals with a failed call: a lost channel becomes an event, a rejection is only remarked on. -/
def callFailed (call : Call) (fault : RemoteFault) (w : World κ) : World κ :=
  let w := w.remark (.callFailed call fault)
  if fault.losesConnection then w.enqueue (.lost call.token fault) else w

/-- Tells a provider about one subscription. -/
def send (t : Transport) (provider : Provider) (call : Call) (w : World κ) : World κ :=
  let answer := t.call provider call
  let w := w.invoke answer provider call
  match answer.failure with
  | some fault => w.callFailed call fault
  | none => w

/-- Clears the session and releases the binding that it held. -/
def release (w : World κ) : World κ :=
  let cleared := { w with session := w.session.reset }
  match w.session.binding with
  | some token => cleared.act (.unbind token)
  | none => cleared

/-- Says goodbye to the provider that is held, whatever it answers. -/
def takeLeave (t : Transport) (w : World κ) : World κ :=
  match w.session.provider, w.session.attempt with
  | some provider, some token =>
    let answer := t.call provider (.disconnect token)
    let w := w.invoke answer provider (.disconnect token)
    match answer.failure with
    | some fault => w.remark (.disconnectFailed fault)
    | none => w
  | _, _ => w

/-- Ends the connection on purpose. -/
def tearDown (t : Transport) (w : World κ) : World κ :=
  let phase := w.session.phase
  let w := ((w.act (.tornDown phase)).takeLeave t).release
  if phase = .disconnected then w else w.remark (.disconnected phase)

/-- What happens when nothing keeps the session alive any more. -/
def abandon (t : Transport) (w : World κ) : World κ :=
  if w.session.phase ≠ .disconnected ∨ w.session.binding.isSome then w.tearDown t else w

/-- Makes a token, and begins an attempt with it. -/
def startAttempt (begin : Session κ → Token → Session κ) (w : World κ) : World κ × Token :=
  let token : Token := ⟨w.tokens + 1⟩
  (act (.started token)
    { w with tokens := w.tokens + 1, session := begin w.session token }, token)

end World
end MediaLink
