import MediaLink.Rehearsal.Script
import MediaLink.Session.Calls
import MediaLink.Session.Handling

/-! The stage of a rehearsal: a session, its stand-ins, and what is to happen in callbacks. -/
namespace MediaLink.Rehearsal

/-- A callback of the application. It is known by its number; silent ones do nothing. -/
structure Listener where
  name : String
  silent : Bool
  serial : Nat

/-- What a line leads to. -/
inductive Outcome where
  | nothing
  | text (s : String)
  | flag (b : Bool)
  | extras (options : Option Payload)
  | fault (fault : Fault)
  | refusal (refusal : Json.Refusal)
  /-- The line cannot be played. -/
  | misplaced (message : String)
  /-- The line needs a handle, and there is none. -/
  | noHandle

inductive Entry where
  | act (a : Act Listener)
  | reaction (verb : String)
  | reactionOutcome (o : Outcome)

structure Stage where
  world : World Listener
  /-- Whether the connection callback is silent. -/
  silent : Bool := false
  binder : BinderScript := {}
  providers : List ProviderScript := [{}, {}, {}]
  /-- How many listeners there have been. -/
  listeners : Nat := 0
  /-- What listeners do when they are first called. -/
  reactions : List (Nat × List Line) := []
  /-- What the connection callback does, once for each notice listed. -/
  cues : List (Notice × List Line) := []
  /-- What happened, newest first. -/
  log : List Entry := []

namespace Stage

def script (s : Stage) (provider : Provider) : ProviderScript :=
  s.providers[provider.index]?.getD {}

/-- How the stand-ins answer as things are. -/
def transport (s : Stage) : Transport where
  bind token :=
    ⟨!s.binder.refuses, (s.binder.autoBound.map fun p => .binder token (.bound p)).toList⟩
  call provider call := (s.script provider).answer provider call

/-- Whether an act is seen from outside. -/
def isSeen (s : Stage) : Act Listener → Bool
  | .connection .. => !s.silent
  | .children listener _ => !listener.silent
  | .item listener _ _ _ => !listener.silent
  | .started _ | .accepted .. | .tornDown _ => false
  | _ => true

/-- The acts of a world that an earlier one does not have, newest first. -/
def freshActs (before after : World Listener) : List (Act Listener) :=
  after.history.take (after.history.length - before.history.length)

/-- Lets something happen to the world, and takes down what was done. -/
def advance (s : Stage) (go : World Listener → World Listener) : Stage :=
  let world := go s.world
  { s with world, log := ((freshActs s.world world).filter s.isSeen).map .act ++ s.log }

def note (s : Stage) (e : Entry) : Stage := { s with log := e :: s.log }

/-- The list member with an index, or the last one. -/
def pick? (members : List α) : Option Nat → Option α
  | some i => members[i]?
  | none => members.getLast?

/-- A call that may fail and otherwise changes the world. -/
def call (s : Stage) (result : Except Fault (World Listener)) : Stage × Outcome :=
  match result with
  | .ok world => (s.advance fun _ => world, .nothing)
  | .error fault => (s, .fault fault)

/-- A question to the session. -/
def ask (s : Stage) (result : Except Fault α) (outcome : α → Outcome) : Stage × Outcome :=
  match result with
  | .ok a => (s, outcome a)
  | .error fault => (s, .fault fault)

/-- A new listener with what it is to do when it is first called. -/
def enlist (s : Stage) (name : String) (silent : Bool) (reaction : List Line) :
    Stage × Listener :=
  let serial := s.listeners + 1
  ({ s with listeners := serial, reactions := (serial, reaction) :: s.reactions },
    ⟨name, silent, serial⟩)

def onBinderSink (s : Stage) (sink : Option Nat) (go : Token → Stage × Outcome) :
    Stage × Outcome :=
  match pick? s.world.binderSinks sink with
  | some token => go token
  | none => (s, .misplaced "no such bind")

def onProviderSink (s : Stage) (sink : Option Nat) (go : ProviderSink → Stage × Outcome) :
    Stage × Outcome :=
  match pick? s.world.providerSinks sink with
  | some sink => go sink
  | none => (s, .misplaced "no such connect call")

/-- A text, or nothing where there is none. -/
def ofText : Option String → Outcome
  | some s => .text s
  | none => .nothing

def inspectSink (name : String) (token : Token) : String :=
  Text.inspectPartial name [("token", token.inspect)]

/-- Plays a line that needs a handle. Lines that let the loop run have no place here. -/
def playWithHandle (s : Stage) : Line → Stage × Outcome
  | .connect => s.call (s.world.connect s.transport)
  | .disconnect => (s.advance (·.disconnect s.transport), .nothing)
  | .root => s.ask s.world.root .text
  | .sessionToken => s.ask s.world.sessionToken fun token => .text token.value
  | .extras => s.ask s.world.extras .extras
  | .component => s.ask s.world.component fun c => .text c.text
  | .inspect => (s, .text s.world.inspect)
  | .dump => (s.advance World.dump, .nothing)
  | .subscribe node options name silent reaction =>
    let (s, listener) := s.enlist name silent reaction
    s.call (s.world.subscribe s.transport node options listener)
  | .unsubscribe node options => s.call (s.world.unsubscribe s.transport node options)
  | .getItem mediaId name silent reaction =>
    let (s, listener) := s.enlist name silent reaction
    s.call (s.world.getItem mediaId listener)
  | .cloneHandle => (s.advance World.cloneHandle, .nothing)
  | _ => (s, .misplaced "unknown step")

/-- Plays a line that does not let the loop run. -/
def play (s : Stage) : Line → Stage × Outcome
  | .dropHandle =>
    if s.world.handles = 0 then (s, .flag false)
    else (s.advance (·.dropHandle s.transport), .flag true)
  | .binder sink note =>
    s.onBinderSink sink fun token => (s.advance (·.post (.binder token note)), .nothing)
  | .provider sink _ note =>
    s.onProviderSink sink fun sink =>
      match note with
      | .ok note => (s.advance (·.post (.provider sink note)), .nothing)
      | .error refusal => (s, .refusal refusal)
  | .inspectBinderSink sink =>
    (s, ofText ((pick? s.world.binderSinks sink).map (inspectSink "BinderEvents")))
  | .inspectProviderSink sink =>
    s.onProviderSink sink fun sink => (s, .text (inspectSink "ServiceCallbacks" sink.token))
  | .setBinder script => ({ s with binder := script }, .nothing)
  | .setProvider provider script =>
    ({ s with providers := s.providers.set provider.index script }, .nothing)
  | .reactOn notice reaction =>
    match notice with
    | some notice => ({ s with cues := s.cues ++ [(notice, reaction)] }, .nothing)
    | none => (s, .nothing)
  | line => if s.world.handles = 0 then (s, .noHandle) else s.playWithHandle line

/-- Plays a line from inside a callback. -/
def playReaction (s : Stage) (line : Line) : Stage :=
  let (s, outcome) := (s.note (.reaction line.verb)).play line
  s.note (.reactionOutcome outcome)

/-- The lines that a callback plays, and the stage on which they are used up. -/
def takeReaction (s : Stage) : Act Listener → Stage × List Line
  | .connection notice _ =>
    if s.silent then (s, [])
    else ({ s with cues := s.cues.eraseP (·.1 == notice) }, (s.cues.lookup notice).getD [])
  | .children listener _ | .item listener _ _ _ =>
    if listener.silent then (s, [])
    else ({ s with reactions := s.reactions.eraseP (·.1 == listener.serial) },
      (s.reactions.lookup listener.serial).getD [])
  | _ => (s, [])

/-- Plays what the callbacks among some acts have to play. -/
def react (s : Stage) (acts : List (Act Listener)) : Stage :=
  acts.foldl (fun s a =>
    let (s, lines) := s.takeReaction a
    lines.foldl playReaction s) s

/-- Lets the loop handle events until none is left, at most as many as given. -/
def settle : Nat → Stage → Stage
  | 0, s => s
  | patience + 1, s =>
    let after := s.advance (·.turn s.transport)
    if after.world.loop = .handling then
      let reacted := after.react (freshActs s.world after.world)
      settle patience (reacted.advance (·.finish reacted.transport))
    else after

/-- How many lines callbacks can still play. -/
def pendingLines (s : Stage) : Nat :=
  ((s.reactions.map Prod.snd ++ s.cues.map Prod.snd).map Line.weights).foldl Nat.add 0

/-- More events than can ever be handled before the queue is empty. Each event that is there, or
that a reaction adds, leads to one reply at most, and a reply to two events for a subscription. -/
def patience (s : Stage) : Nat :=
  let roots := s.world.queue.length + 2 * s.pendingLines + 2
  let subscriptions := s.world.session.subscriptions.replay.length + s.pendingLines
  roots * (2 * subscriptions + 4)

def settleAll (s : Stage) : Stage := s.settle s.patience

/-- Answers the oldest lookup, and lets everything happen that follows. -/
def answerOldest (s : Stage) : Stage :=
  match s.world.lookups with
  | [] => s
  | l :: _ =>
    (s.advance (·.answer ((s.script l.provider).find l.mediaId) 0)).settleAll

/-- Answers lookups until none is left, at most as many as given. -/
def answerAll : Nat → Stage → Stage
  | 0, s => s
  | patience + 1, s =>
    match s.world.lookups with
    | [] => s
    | _ :: _ => answerAll patience s.answerOldest

def settleLookups (s : Stage) : Stage :=
  s.answerAll (s.world.lookups.length + s.pendingLines)

/-- Waits for a barrier, if there is a handle to wait with. -/
def waitForBarrier (s : Stage) : Stage :=
  if s.world.handles = 0 then s else (s.advance World.barrier).settleAll

end Stage
end MediaLink.Rehearsal
