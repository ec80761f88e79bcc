import MediaLink.Value

/-! Browse options: named values that go to the provider untouched. -/
namespace MediaLink

structure Payload where
  members : Members
  deriving Inhabited

namespace Payload

def empty : Payload := ⟨[]⟩

def size (p : Payload) : Nat := p.members.length

def isEmpty (p : Payload) : Bool := p.members.isEmpty

def get? (p : Payload) (key : String) : Option Value := p.members.get? key

def insert (p : Payload) (key : String) (value : Value) : Payload :=
  ⟨p.members.insert key value⟩

def pageKey : String := "media_browser.extra.PAGE"

def pageSizeKey : String := "media_browser.extra.PAGE_SIZE"

def page? (p : Payload) : Option Int := (p.get? pageKey).bind Value.int64?

def pageSize? (p : Payload) : Option Int := (p.get? pageSizeKey).bind Value.int64?

def withPage (p : Payload) (n : Int) : Payload := p.insert pageKey (.number (.integer n))

def withPageSize (p : Payload) (n : Int) : Payload := p.insert pageSizeKey (.number (.integer n))

def same (p q : Payload) : Bool := Value.sameMembers p.members q.members

def inspect (p : Payload) : String :=
  "BrowseOptions(" ++ Text.inspectMap (Value.inspectMembers p.members) ++ ")"

def inspectOption (p : Option Payload) : String := Text.inspectOption inspect p

end Payload

/-- What tells the subscriptions to one node apart. The payload is kept as it was given. -/
structure Key where
  options : Option Payload
  deriving Inhabited

namespace Key

def default : Key := ⟨none⟩

/-- The options, unless they are absent or empty. -/
def filled? (options : Option Payload) : Option Payload := options.filter fun p => !p.isEmpty

def isDefault (k : Key) : Bool := (filled? k.options).isNone

/-- Whether options denote this key's subscription. Absent and empty options denote the same. -/
def admits (k : Key) (options : Option Payload) : Bool :=
  match filled? k.options, filled? options with
  | none, none => true
  | some p, some q => p.same q
  | _, _ => false

def same (k l : Key) : Bool := k.admits l.options

def inspect (k : Key) : String :=
  Text.inspectRecord "OptionsKey" [("options", Payload.inspectOption k.options)]

end Key
end MediaLink
