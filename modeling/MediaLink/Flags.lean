import MediaLink.Json.Wire

/-! What can be done with an item: browsing into it, playing it. -/
namespace MediaLink

open Json

/-- A set of flags. Bits without a meaning may be set in flags that were read. -/
structure Flags where
  bits : UInt32
  deriving DecidableEq, Repr

namespace Flags

def none : Flags := ⟨0⟩
def browsable : Flags := ⟨1⟩
def playable : Flags := ⟨2⟩

def union (a b : Flags) : Flags := ⟨a.bits ||| b.bits⟩

/-- The flags of a word without the bits that have no meaning. -/
def truncate (bits : UInt32) : Flags := ⟨bits &&& (browsable.union playable).bits⟩

def contains (a b : Flags) : Bool := a.bits &&& b.bits == b.bits

def inspect (f : Flags) : String := "MediaItemFlags(" ++ toString f.bits.toNat ++ ")"

def toTree (f : Flags) : Tree := .number (some (.integer f.bits.toNat))

def read : Reader Flags := fun depth t => (Reader.word depth t).map Flags.mk

end Flags
end MediaLink
