import MediaLink.Session.Calls
import MediaLink.Session.Handling

/-! Runs of a session: what the application, the transport and the loop do, in any order. -/
namespace MediaLink

/-- One step of a run, with the answers that the binder and the providers give during it. -/
inductive Step (κ : Type) where
  | connect (t : Transport)
  | disconnect (t : Transport)
  | subscribe (t : Transport) (node : String) (options : Option Payload) (callback : κ)
  | unsubscribe (t : Transport) (node : String) (options : Option Payload)
  | getItem (mediaId : String) (callback : κ)
  | barrier
  | cloneHandle
  | dropHandle (t : Transport)
  | post (posting : Posting)
  | turn (t : Transport)
  | finish (t : Transport)
  | answer (result : Except RemoteFault (Option Item)) (index : Nat)

namespace World

variable {κ : Type}

/-- The world after a call; the same world if the call fails. -/
def orSame (w : World κ) (result : Except Fault (World κ)) : World κ :=
  match result with
  | .ok w => w
  | .error _ => w

/-- Calls through a handle are possible only while there is one. -/
def withHandle (w : World κ) (go : World κ → World κ) : World κ :=
  if w.handles = 0 then w else go w

def step (w : World κ) : Step κ → World κ
  | .connect t => w.withHandle fun w => w.orSame (w.connect t)
  | .disconnect t => w.withHandle (disconnect t)
  | .subscribe t node options callback =>
    w.withHandle fun w => w.orSame (w.subscribe t node options callback)
  | .unsubscribe t node options => w.withHandle fun w => w.orSame (w.unsubscribe t node options)
  | .getItem mediaId callback => w.withHandle fun w => w.orSame (w.getItem mediaId callback)
  | .barrier => w.withHandle barrier
  | .cloneHandle => w.withHandle cloneHandle
  | .dropHandle t => w.withHandle (dropHandle t)
  | .post posting => w.post posting
  | .turn t => w.turn t
  | .finish t => w.finish t
  | .answer result index => w.answer result index

def run (w : World κ) (steps : List (Step κ)) : World κ := steps.foldl step w

end World
end MediaLink
