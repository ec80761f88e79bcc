import MediaLink.Subscription.EntrySet
import Std.Data.ExtTreeMap

/-! What the application wants to hear about, kept across connections. -/
namespace MediaLink

/-- The subscribed nodes in the order in which they appeared, and the subscriptions to each. A node
without subscriptions is in neither. -/
structure Registry (κ : Type) where
  order : List String
  sets : Std.ExtTreeMap String (EntrySet κ)

namespace Registry

variable {κ : Type}

def empty : Registry κ := ⟨[], ∅⟩

def isEmpty (r : Registry κ) : Bool := r.order.isEmpty

def nodeCount (r : Registry κ) : Nat := r.order.length

def get? (r : Registry κ) (node : String) : Option (EntrySet κ) := r.sets[node]?

def find? (r : Registry κ) (node : String) (options : Option Payload) : Option (Key × κ) :=
  (r.get? node).bind (·.find? options)

def callback? (r : Registry κ) (node : String) (options : Option Payload) : Option κ :=
  (r.find? node options).map Prod.snd

def contains (r : Registry κ) (node : String) (options : Option Payload) : Bool :=
  (r.find? node options).isSome

/-- A new node goes to the end; a known one keeps its place. -/
def insert (r : Registry κ) (node : String) (key : Key) (callback : κ) : Registry κ where
  order := if node ∈ r.sets then r.order else r.order ++ [node]
  sets := r.sets.insert node (((r.get? node).getD .empty).insert key callback)

/-- The registry without one subscription. A node goes with its last subscription. -/
def erase (r : Registry κ) (node : String) (options : Option Payload) : Registry κ :=
  match r.get? node with
  | none => r
  | some s =>
    if !s.contains options then r
    else if (s.erase options).isEmpty then ⟨r.order.filter (· != node), r.sets.erase node⟩
    else { r with sets := r.sets.insert node (s.erase options) }

/-- The nodes in order, each with its subscriptions. -/
def nodes (r : Registry κ) : List (String × EntrySet κ) :=
  r.order.filterMap fun node => (r.get? node).map (node, ·)

/-- All subscriptions in the order in which a provider hears of them. -/
def replay (r : Registry κ) : List (String × Option Payload) :=
  r.nodes.flatMap fun (node, s) => s.keys.map fun key => (node, key.options)

def inspect (r : Registry κ) : String :=
  Text.inspectMap (r.nodes.map fun (node, s) => (Text.inspect node, s.inspect))

end Registry
end MediaLink
