import Synod.Rank
import Synod.Text.Printable

/-!
The one-line text that shows how a value is built: names of its parts, quoted strings, lists in
brackets.
-/
namespace Synod

/-- Values with a text that shows their structure. -/
class Shown (α : Type) where
  shown : α → String

export Shown (shown)

namespace Shown

/-- How one character stands inside a quoted string. -/
def escaped (c : Char) : List Char :=
  if c = '\x00' then ['\\', '0']
  else if c = '\t' then ['\\', 't']
  else if c = '\r' then ['\\', 'r']
  else if c = '\n' then ['\\', 'n']
  else if c = '"' ∨ c = '\\' then ['\\', c]
  else if Text.isExtender c ∨ ¬ Text.isPrintable c then
    ['\\', 'u', '\x7b'] ++ Nat.toDigits 16 c.toNat ++ ['\x7d']
  else [c]

def quoted (text : String) : String :=
  String.ofList ('"' :: text.toList.flatMap escaped ++ ['"'])

def commas (parts : List String) : String := String.intercalate ", " parts

/-- A name followed by its parts in parentheses. -/
def tuple (name : String) (parts : List String) : String :=
  name ++ "(" ++ commas parts ++ ")"

/-- A name followed by its named parts in braces. -/
def record (name : String) (fields : List (String × String)) : String :=
  name ++ " \x7b " ++ commas (fields.map fun (field, value) => field ++ ": " ++ value) ++ " \x7d"

instance : Shown Bool := ⟨fun b => if b then "true" else "false"⟩

instance : Shown UInt64 := ⟨fun n => toString n.toNat⟩

instance : Shown String := ⟨quoted⟩

instance : Shown ProposerId := ⟨ProposerId.text⟩

instance {α : Type} [Shown α] : Shown (List α) :=
  ⟨fun xs => "[" ++ commas (xs.map shown) ++ "]"⟩

instance {α : Type} [Shown α] : Shown (Option α) where
  shown
    | none => "None"
    | some x => tuple "Some" [shown x]

instance : Shown Rank :=
  ⟨fun r => record "Rank" [("sequence", shown r.sequence), ("proposer", shown r.proposer)]⟩

end Shown
end Synod
