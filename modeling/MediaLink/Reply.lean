import MediaLink.Json.Wire

/-! A provider's answer to a client that it accepts. -/
namespace MediaLink

open Json

/-- Neither the root nor the session token is checked here; a session checks them. -/
structure Reply where
  root : String
  sessionToken : String
  extras : Option Payload

namespace Reply

def toTree (r : Reply) : Tree :=
  .record [(some "rootId", .text (some r.root)), (some "sessionToken", .text (some r.sessionToken)),
    (some "extras", (r.extras.map Payload.toTree).getD .null)] true

/-- A reply whose fields are being read. -/
structure Draft where
  root : Option String := none
  sessionToken : Option String := none
  extras : Option (Option Payload) := none

def Draft.finish (d : Draft) : Reply := ⟨d.root.getD "", d.sessionToken.getD "", d.extras.join⟩

def shape : Shape Draft where
  name := "ConnectReply"
  fields := [
    ⟨"rootId", true, (·.root.isSome), fun depth t d =>
      (Reader.text depth t).map fun s => { d with root := some s }⟩,
    ⟨"sessionToken", true, (·.sessionToken.isSome), fun depth t d =>
      (Reader.text depth t).map fun s => { d with sessionToken := some s }⟩,
    ⟨"extras", false, (·.extras.isSome), fun depth t d =>
      (Reader.option Payload.read depth t).map fun p => { d with extras := some p }⟩]
  empty := {}

def read : Reader Reply := fun depth t => (shape.read depth t).map Draft.finish

end Reply
end MediaLink
