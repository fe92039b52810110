import Synod.Text.Blank
import Synod.Text.Decimal

/-!
Commands of the shell. Each is a word, long or of one letter, and its arguments; what follows is
ignored.
-/
namespace Synod.Shell

inductive Command where
  | connect (port : UInt16)
  | disconnect
  | layout
  | bootstrap (path : String)
  | epoch (epoch : UInt64)
  | prepare (sequence epoch : UInt64)
  | retry (epoch : UInt64)
  | propose (sequence epoch : UInt64) (path : String)
  | commit (sequence epoch : UInt64) (path : String)
  | help
deriving DecidableEq, Inhabited

namespace Command

/-- The first words of commands, without regard to their arguments. -/
inductive Verb where
  | connect
  | disconnect
  | layout
  | bootstrap
  | epoch
  | prepare
  | retry
  | propose
  | commit
  | help
deriving DecidableEq

namespace Verb

def all : List Verb :=
  [connect, disconnect, layout, bootstrap, epoch, prepare, retry, propose, commit, help]

def long : Verb → String
  | connect => "connect"
  | disconnect => "disconnect"
  | layout => "layout"
  | bootstrap => "bootstrap"
  | epoch => "epoch"
  | prepare => "prepare"
  | retry => "retry"
  | propose => "propose"
  | commit => "commit"
  | help => "help"

def short : Verb → String
  | connect => "c"
  | disconnect => "d"
  | layout => "l"
  | bootstrap => "b"
  | epoch => "e"
  | prepare => "p"
  | retry => "r"
  | propose => "a"
  | commit => "m"
  | help => "h"

def ofWord? (word : List Char) : Option Verb :=
  all.find? fun v => v.long.toList = word || v.short.toList = word

end Verb

/-- The command that a verb makes with the words after it. -/
def ofWords? (verb : Verb) (words : List (List Char)) : Option Command :=
  match verb, words with
  | .help, _ => some help
  | .layout, _ => some layout
  | .disconnect, _ => some disconnect
  | .connect, port :: _ => (Text.word16? port).map connect
  | .bootstrap, path :: _ => some (bootstrap (String.ofList path))
  | .epoch, e :: _ => (Text.word64? e).map epoch
  | .retry, e :: _ => (Text.word64? e).map retry
  | .prepare, s :: e :: _ => do return prepare (← Text.word64? s) (← Text.word64? e)
  | .propose, s :: e :: path :: _ => do
    return propose (← Text.word64? s) (← Text.word64? e) (String.ofList path)
  | .commit, s :: e :: path :: _ => do
    return commit (← Text.word64? s) (← Text.word64? e) (String.ofList path)
  | _, _ => none

def parse? (line : String) : Option Command :=
  match Text.words line.toList with
  | [] => none
  | word :: words => (Verb.ofWord? word).bind fun verb => ofWords? verb words

end Command
end Synod.Shell
