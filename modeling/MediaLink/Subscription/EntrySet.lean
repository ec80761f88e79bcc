import MediaLink.Payload

/-! The subscriptions to one node, in the order in which their keys appeared. -/
namespace MediaLink

/-- Entries pair a key with the callback to run. No two keys denote the same subscription. -/
structure EntrySet (κ : Type) where
  entries : List (Key × κ)

namespace EntrySet

variable {κ : Type}

def empty : EntrySet κ := ⟨[]⟩

def isEmpty (s : EntrySet κ) : Bool := s.entries.isEmpty

def size (s : EntrySet κ) : Nat := s.entries.length

def keys (s : EntrySet κ) : List Key := s.entries.map Prod.fst

/-- The entry that options denote. -/
def find? (s : EntrySet κ) (options : Option Payload) : Option (Key × κ) :=
  s.entries.find? fun (key, _) => key.admits options

def callback? (s : EntrySet κ) (options : Option Payload) : Option κ :=
  (s.find? options).map Prod.snd

def contains (s : EntrySet κ) (options : Option Payload) : Bool := (s.find? options).isSome

/-- Replaces the callback of the first entry with an equal key, or adds an entry at the end. -/
def insertEntry (key : Key) (callback : κ) : List (Key × κ) → List (Key × κ)
  | [] => [(key, callback)]
  | (k, c) :: rest =>
    if k.same key then (k, callback) :: rest else (k, c) :: insertEntry key callback rest

/-- An equal key keeps its place and its own options; only the callback is replaced. -/
def insert (s : EntrySet κ) (key : Key) (callback : κ) : EntrySet κ :=
  ⟨insertEntry key callback s.entries⟩

/-- The set without the entry that options denote. -/
def erase (s : EntrySet κ) (options : Option Payload) : EntrySet κ :=
  ⟨s.entries.eraseP fun (key, _) => key.admits options⟩

def inspect (s : EntrySet κ) : String := Text.inspectList (s.keys.map Key.inspect)

end EntrySet
end MediaLink
