import MediaLink.Flags

/-! Media items: what they are called, and what can be done with them. -/
namespace MediaLink

open Json

structure Description where
  mediaId : String
  title : Option String := none
  subtitle : Option String := none
  description : Option String := none
  iconUri : Option String := none
  mediaUri : Option String := none
  extras : Option Payload := none

namespace Description

/-- The title, if there is one, with the id in parentheses. -/
def text (d : Description) : String :=
  match d.title with
  | some title => title ++ " (" ++ d.mediaId ++ ")"
  | none => d.mediaId

def inspect (d : Description) : String :=
  let optional := Text.inspectOption Text.inspect
  Text.inspectRecord "MediaDescription" [
    ("media_id", Text.inspect d.mediaId), ("title", optional d.title),
    ("subtitle", optional d.subtitle), ("description", optional d.description),
    ("icon_uri", optional d.iconUri), ("media_uri", optional d.mediaUri),
    ("extras", Payload.inspectOption d.extras)]

/-- A member that is left out if it has no value. -/
def optional (key : String) (tree : α → Tree) : Option α → List (Option String × Tree)
  | some a => [(some key, tree a)]
  | none => []

def textTree (s : String) : Tree := .text (some s)

def toTree (d : Description) : Tree :=
  .record ((some "mediaId", textTree d.mediaId)
    :: optional "title" textTree d.title
    ++ optional "subtitle" textTree d.subtitle
    ++ optional "description" textTree d.description
    ++ optional "iconUri" textTree d.iconUri
    ++ optional "mediaUri" textTree d.mediaUri
    ++ optional "extras" Payload.toTree d.extras) true

/-- A description whose fields are being read: for each field, what was read if it was. -/
structure Draft where
  mediaId : Option String := none
  title : Option (Option String) := none
  subtitle : Option (Option String) := none
  description : Option (Option String) := none
  iconUri : Option (Option String) := none
  mediaUri : Option (Option String) := none
  extras : Option (Option Payload) := none

def Draft.finish (d : Draft) : Description :=
  ⟨d.mediaId.getD "", d.title.join, d.subtitle.join, d.description.join, d.iconUri.join,
    d.mediaUri.join, d.extras.join⟩

/-- A field that may be missing or null. -/
def optionalField (name : String) (read : Reader α) (get : Draft → Option (Option α))
    (set : Draft → Option α → Draft) : Shape.Field Draft :=
  ⟨name, false, fun d => (get d).isSome, fun depth t d => (Reader.option read depth t).map (set d)⟩

def shape : Shape Draft where
  name := "MediaDescription"
  fields := [
    ⟨"mediaId", true, (·.mediaId.isSome), fun depth t d =>
      (Reader.text depth t).map fun s => { d with mediaId := some s }⟩,
    optionalField "title" Reader.text (·.title) fun d s => { d with title := some s },
    optionalField "subtitle" Reader.text (·.subtitle) fun d s => { d with subtitle := some s },
    optionalField "description" Reader.text (·.description)
      fun d s => { d with description := some s },
    optionalField "iconUri" Reader.text (·.iconUri) fun d s => { d with iconUri := some s },
    optionalField "mediaUri" Reader.text (·.mediaUri) fun d s => { d with mediaUri := some s },
    optionalField "extras" Payload.read (·.extras) fun d p => { d with extras := some p }]
  empty := {}

def read : Reader Description := fun depth t => (shape.read depth t).map Draft.finish

end Description

/-- A described medium with its flags. Made items have a media id that is not empty. -/
structure Item where
  description : Description
  flags : Flags

namespace Item

def make (description : Description) (flags : Flags) : Except Fault Item :=
  if description.mediaId = "" then .error .unnamedItem else .ok ⟨description, flags⟩

def mediaId (i : Item) : String := i.description.mediaId

def isBrowsable (i : Item) : Bool := i.flags.contains .browsable

def isPlayable (i : Item) : Bool := i.flags.contains .playable

def text (i : Item) : String :=
  "MediaItem\x7bflags=" ++ toString i.flags.bits.toNat ++ ", description=" ++ i.description.text
    ++ "\x7d"

def inspect (i : Item) : String :=
  Text.inspectRecord "MediaItem"
    [("description", i.description.inspect), ("flags", i.flags.inspect)]

def toTree (i : Item) : Tree :=
  .record [(some "description", i.description.toTree), (some "flags", i.flags.toTree)] true

/-- An item whose fields are being read. -/
structure Draft where
  description : Option Description := none
  flags : Option Flags := none

def shape : Shape Draft where
  name := "RawMediaItem"
  fields := [
    ⟨"description", true, (·.description.isSome), fun depth t draft =>
      (Description.read depth t).map fun d => { draft with description := some d }⟩,
    ⟨"flags", false, (·.flags.isSome), fun depth t draft =>
      (Flags.read depth t).map fun f => { draft with flags := some f }⟩]
  empty := {}

def read : Reader Item :=
  Reader.checked shape.read fun d => make (d.description.getD ⟨"", none, none, none, none, none, none⟩)
    (d.flags.getD .none)

end Item
end MediaLink
