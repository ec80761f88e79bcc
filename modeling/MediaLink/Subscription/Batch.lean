import MediaLink.Item

/-! Children that a provider pushes for a node, and how a subscriber hears of them. -/
namespace MediaLink

/-- A push for one node. No children mean that loading them failed. The options are those of the
subscription that the provider answers. -/
structure Batch where
  parent : String
  children : Option (List Item)
  options : Option Payload

/-- What a subscriber is told. Options are named only to a subscriber that gave some. -/
structure Delivery where
  parent : String
  children : Option (List Item)
  options : Option Payload

namespace Batch

/-- The delivery to the subscriber behind a key: its options count, not the pushed ones. -/
def deliver (b : Batch) (key : Key) : Delivery := ⟨b.parent, b.children, Key.filled? key.options⟩

def inspect (b : Batch) : String :=
  Text.inspectRecord "ChildrenEvent" [
    ("parent_id", Text.inspect b.parent),
    ("children", Text.inspectOption (fun is => Text.inspectList (is.map Item.inspect)) b.children),
    ("options", Payload.inspectOption b.options)]

end Batch

namespace Delivery

/-- The name of the form in which a subscriber is told. -/
def form (d : Delivery) : String :=
  match d.children, d.options with
  | some _, none => "loaded"
  | some _, some _ => "loaded_with_options"
  | none, none => "error"
  | none, some _ => "error_with_options"

end Delivery
end MediaLink
