import MediaLink.Json.Wire

/-! Names of attempts, of provider sessions, and of providers to bind. -/
namespace MediaLink

open Json

/-- The identity of one connection attempt. Tokens are numbered in the order they are made, so
that no two of them are equal. -/
structure Token where
  serial : Nat
  deriving DecidableEq, Repr

namespace Token

def text (t : Token) : String := "t" ++ toString t.serial

def inspect (t : Token) : String := "ConnectionToken(" ++ t.text ++ ")"

end Token

/-- The provider's name for a session: any text but the empty one. -/
structure SessionToken where
  value : String
  deriving DecidableEq, Repr

namespace SessionToken

def make (value : String) : Except Fault SessionToken :=
  if value = "" then .error .emptySessionToken else .ok ⟨value⟩

def inspect (t : SessionToken) : String := "SessionToken(" ++ Text.inspect t.value ++ ")"

def toTree (t : SessionToken) : Tree := .text (some t.value)

def read : Reader SessionToken := Reader.text.checked make

end SessionToken

/-- The name of a provider: a package and a class inside it. -/
structure Component where
  package : String
  className : String
  deriving DecidableEq, Repr

namespace Component

def make (package className : String) : Except Fault Component :=
  if package = "" ∨ className = "" then .error .partialComponent else .ok ⟨package, className⟩

def text (c : Component) : String := c.package ++ "/" ++ c.className

def inspect (c : Component) : String :=
  Text.inspectRecord "ServiceComponent"
    [("package", Text.inspect c.package), ("class", Text.inspect c.className)]

def toTree (c : Component) : Tree :=
  .record [(some "package", .text (some c.package)), (some "class", .text (some c.className))] true

/-- A component whose fields are being read. -/
structure Draft where
  package : Option String := none
  className : Option String := none

def shape : Shape Draft where
  name := "RawServiceComponent"
  fields := [
    ⟨"package", true, (·.package.isSome), fun depth t draft =>
      (Reader.text depth t).map fun s => { draft with package := some s }⟩,
    ⟨"class", true, (·.className.isSome), fun depth t draft =>
      (Reader.text depth t).map fun s => { draft with className := some s }⟩]
  empty := {}

def read : Reader Component :=
  Reader.checked shape.read fun d => make (d.package.getD "") (d.className.getD "")

end Component
end MediaLink
