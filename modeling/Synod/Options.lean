import Synod.Text.Decimal

/-!
Command-line options. An option has a letter and a name; letters can be joined, and a value may
follow in the same word, after an equals sign or not, or in the next word. There are no other
arguments.
-/
namespace Synod.Options

/-- What an option is known by and whether a value belongs to it. -/
structure Spec where
  letter : Char
  name : String
  valued : Bool
deriving DecidableEq

/-- An option as it occurs, with its value if it has one. -/
structure Given where
  letter : Char
  value : Option (List Char)
deriving DecidableEq

/-- What a word of the command line amounts to. -/
inductive Word where
  | given (options : List Given)
  /-- The value of the option is the next word. -/
  | awaiting (options : List Given) (letter : Char)
  | unknown

/-- A value that stands in the same word, without equals signs before it. -/
def attached (cs : List Char) : List Char := cs.dropWhile (· = '=')

/-- Joined letters, with the options before them in reverse. -/
def letters (specs : List Spec) : List Given → List Char → Word
  | done, [] => .given done.reverse
  | done, c :: cs =>
    match specs.find? fun s => s.letter = c with
    | none => .unknown
    | some s =>
      if !s.valued then letters specs (⟨c, none⟩ :: done) cs
      else if cs.isEmpty then .awaiting done.reverse c
      else .given (⟨c, some (attached cs)⟩ :: done).reverse

/-- An option by its name, with any number of dashes before it. -/
def named (specs : List Spec) (cs : List Char) : Word :=
  let cs := cs.dropWhile (· = '-')
  let name := cs.takeWhile (· ≠ '=')
  let rest := cs.dropWhile (· ≠ '=')
  match specs.find? fun s => s.name.toList = name with
  | none => .unknown
  | some s =>
    if !s.valued then .given [⟨s.letter, none⟩]
    else if rest.isEmpty then .awaiting [] s.letter
    else .given [⟨s.letter, some (attached rest)⟩]

/-- Whether a word starts an option and so cannot be a value. -/
def isOption : List Char → Bool
  | '-' :: _ :: _ => true
  | _ => false

def word (specs : List Spec) : List Char → Word
  | '-' :: '-' :: cs => named specs cs
  | '-' :: c :: cs => letters specs [] (c :: cs)
  | _ => .unknown

/-- The options of a command line in order, if each word is one and no value is missing. -/
def scan (specs : List Spec) : List (List Char) → Option (List Given)
  | [] => some []
  | ['-', '-'] :: rest => if rest.isEmpty then some [] else none
  | w :: rest =>
    match word specs w with
    | .unknown => none
    | .given options => (scan specs rest).map (options ++ ·)
    | .awaiting options letter =>
      match rest with
      | [] => none
      | value :: rest =>
        if isOption value then none
        else (scan specs rest).map (options ++ ⟨letter, some value⟩ :: ·)

/-- The values given for an option. -/
def values (given : List Given) (letter : Char) : List (List Char) :=
  (given.filter fun g => g.letter = letter).filterMap Given.value

/-- The value of an option that may occur once. -/
def once (given : List Given) (letter : Char) : Option (Option (List Char)) :=
  match values given letter with
  | [] => some none
  | [v] => some (some v)
  | _ => none

def portSpec : Spec := ⟨'p', "port", true⟩

/-- The options of the shell: the port to connect to at the start. -/
structure Shell where
  port : Option UInt16
deriving DecidableEq

def shell? (args : List String) : Option Shell := do
  let given ← scan [portSpec] (args.map String.toList)
  match ← once given 'p' with
  | none => return ⟨none⟩
  | some v => return ⟨some (← Text.word16? v)⟩

/-- The options of the node: its port, and if given a directory for its state, a layout to start
with, and how much it tells. -/
structure Node where
  port : UInt16
  directory : Option String
  layout : Option String
  verbosity : Nat
deriving DecidableEq

def nodeSpecs : List Spec :=
  [portSpec, ⟨'d', "dir", true⟩, ⟨'l', "layout", true⟩, ⟨'v', "verbose", false⟩]

def node? (args : List String) : Option Node := do
  let given ← scan nodeSpecs (args.map String.toList)
  let port ← Text.word16? (← (← once given 'p'))
  let directory ← once given 'd'
  let layout ← once given 'l'
  let verbosity := (given.filter fun g => g.letter = 'v').length
  return ⟨port, directory.map String.ofList, layout.map String.ofList, verbosity⟩

end Synod.Options
