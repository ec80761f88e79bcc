import MediaLink.Json.Refusal
import MediaLink.Session.World

/-! Scripts for a rehearsal: how the stand-ins behave, and the lines to be played. -/
namespace MediaLink.Rehearsal

/-- A stand-in for a binder. -/
structure BinderScript where
  refuses : Bool := false
  /-- The provider that is reported as bound before a bind request is answered. -/
  autoBound : Option Provider := none

/-- When a call fails, and how. -/
inductive Failing where
  | never
  | always (fault : RemoteFault)
  /-- Only for the nodes or media that are named. -/
  | only (faults : List (String × RemoteFault))

def Failing.fault? (f : Failing) (id : String) : Option RemoteFault :=
  match f with
  | .never => none
  | .always fault => some fault
  | .only faults => faults.lookup id

/-- A stand-in for a provider. -/
structure ProviderScript where
  connect : Failing := .never
  disconnect : Failing := .never
  add : Failing := .never
  remove : Failing := .never
  getItem : Failing := .never
  /-- What is posted while a connect call runs. -/
  autoReply : Option ProviderNote := none
  items : List (String × Item) := []
  /-- The children that are pushed while a subscription to their parent is added. -/
  tree : List (String × List Item) := []

namespace ProviderScript

def answer (p : ProviderScript) (provider : Provider) : Call → CallAnswer
  | .connect token =>
    ⟨p.connect.fault? "", (p.autoReply.map (.provider ⟨provider, token⟩)).toList⟩
  | .disconnect _ => ⟨p.disconnect.fault? "", []⟩
  | .add token node options =>
    ⟨p.add.fault? node, ((p.tree.lookup node).map fun children =>
      .provider ⟨provider, token⟩ (.children ⟨node, some children, options⟩)).toList⟩
  | .remove _ node _ => ⟨p.remove.fault? node, []⟩

def find (p : ProviderScript) (mediaId : String) : Except RemoteFault (Option Item) :=
  match p.getItem.fault? mediaId with
  | some fault => .error fault
  | none => .ok (p.items.lookup mediaId)

end ProviderScript

/-- One line of a script. A sink is picked by its index, the latest one by default. -/
inductive Line where
  | connect
  | disconnect
  | root
  | sessionToken
  | extras
  | component
  | inspect
  | dump
  | subscribe (node : String) (options : Option Payload) (listener : String) (silent : Bool)
      (reaction : List Line)
  | unsubscribe (node : String) (options : Option Payload)
  | getItem (mediaId : String) (listener : String) (silent : Bool) (reaction : List Line)
  | cloneHandle
  | dropHandle
  | binder (sink : Option Nat) (note : BinderNote)
  | provider (sink : Option Nat) (verb : String) (note : Except Json.Refusal ProviderNote)
  | inspectBinderSink (sink : Option Nat)
  | inspectProviderSink (sink : Option Nat)
  | setBinder (script : BinderScript)
  | setProvider (provider : Provider) (script : ProviderScript)
  | reactOn (notice : Option Notice) (reaction : List Line)
  | dispatch
  | idle
  | other (verb : String)
  deriving Inhabited

namespace Line

mutual

/-- How many lines a line can bring with it, itself included. -/
def weight : Line → Nat
  | .subscribe _ _ _ _ reaction => 1 + weights reaction
  | .getItem _ _ _ reaction => 1 + weights reaction
  | .reactOn _ reaction => 1 + weights reaction
  | _ => 1

def weights : List Line → Nat
  | [] => 0
  | line :: lines => line.weight + weights lines

end

/-- The word that a line is written with. -/
def verb : Line → String
  | .connect => "connect"
  | .disconnect => "disconnect"
  | .root => "root"
  | .sessionToken => "session_token"
  | .extras => "extras"
  | .component => "service_component"
  | .inspect => "debug"
  | .dump => "dump"
  | .subscribe .. => "subscribe"
  | .unsubscribe .. => "unsubscribe"
  | .getItem .. => "get_item"
  | .cloneHandle => "clone"
  | .dropHandle => "drop"
  | .binder _ (.bound _) => "bound"
  | .binder _ .unbound => "unbound"
  | .provider _ verb _ => verb
  | .inspectBinderSink _ => "bind_debug"
  | .inspectProviderSink _ => "conn_debug"
  | .setBinder _ => "binder"
  | .setProvider .. => "service"
  | .reactOn .. => "react_on"
  | .dispatch => "dispatch"
  | .idle => "idle"
  | .other verb => verb

end Line
end MediaLink.Rehearsal
