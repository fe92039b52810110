import Synod.Error

/-!
Paths as texts: the names in them, and what the operating system accepts. A text that is too long
is refused before any of its names is followed.
-/
namespace Synod

/-- The names on the way from the root. -/
abbrev Path := List String

namespace Path

/-- The greatest size of a name in bytes. -/
def nameLimit : Nat := 255

/-- The text of a path is shorter than this in bytes. -/
def textLimit : Nat := 4096

def fits (text : String) : Bool := text.utf8ByteSize < textLimit

/-- What keeps a text from being a path at all. -/
def fault? (text : String) : Option IoError :=
  if '\x00' ∈ text.toList then some .nulInName
  else if text = "" then some (.os .notFound)
  else if fits text then none
  else some (.os .nameTooLong)

/-- The text of the path to a name in a directory. -/
def join (directory name : String) : String :=
  match directory.toList.getLast? with
  | none | some '/' => directory ++ name
  | some _ => directory ++ "/" ++ name

/-- The names in a text, the empty ones included. -/
def names (text : String) : List String := (text.toList.splitOn '/').map String.ofList

/-- A text without the slashes at its end. -/
def trimmed (names : List String) : List String := (names.reverse.dropWhile (· = "")).reverse

/-- The names above a path, nearest first: names that stay in place do not count. -/
def above (names : List String) : List (List String) :=
  let names := names.filter fun name => name ≠ "" ∧ name ≠ "."
  (List.range names.length).reverse.map fun n => names.take n

end Path
end Synod
