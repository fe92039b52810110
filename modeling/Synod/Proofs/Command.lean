import Mathlib.Data.List.Forall2
import Synod.Proofs.Words
import Synod.Shell.Command

/-!
The commands of the shell as they are typed: a word, long or of one letter, then a word for each
argument, then anything. A line is read as a command exactly if it is one of that command's forms.
-/
namespace Synod.Shell.Command

open Text (Runs Numeral word16?_eq_some_iff word64?_eq_some_iff)

/-- An argument of a command, of the kind that tells how it is typed. -/
inductive Argument where
  | port (n : UInt16)
  | number (n : UInt64)
  | path (p : String)

/-- How an argument may be typed. -/
def Argument.Typed : Argument → List Char → Prop
  | port n, word => Numeral word n.toNat
  | number n, word => Numeral word n.toNat
  | path p, word => word = p.toList

/-- The words that a command may begin with. -/
def names : Command → List String
  | connect _ => ["connect", "c"]
  | disconnect => ["disconnect", "d"]
  | layout => ["layout", "l"]
  | bootstrap _ => ["bootstrap", "b"]
  | epoch _ => ["epoch", "e"]
  | prepare _ _ => ["prepare", "p"]
  | retry _ => ["retry", "r"]
  | propose _ _ _ => ["propose", "a"]
  | commit _ _ _ => ["commit", "m"]
  | help => ["help", "h"]

/-- The arguments of a command in the order in which they are typed. -/
def arguments : Command → List Argument
  | disconnect | layout | help => []
  | connect port => [.port port]
  | bootstrap path => [.path path]
  | epoch e | retry e => [.number e]
  | prepare s e => [.number s, .number e]
  | propose s e path | commit s e path => [.number s, .number e, .path path]

/-- Words of which the first are the forms of arguments; those that follow are of no account. -/
def Given (args : List Argument) (words : List (List Char)) : Prop :=
  ∃ given surplus, words = given ++ surplus ∧ List.Forall₂ Argument.Typed args given

/-- The words that a command may be typed as. -/
inductive Typed (c : Command) : List (List Char) → Prop where
  | mk {name : String} {words : List (List Char)} (hn : name ∈ c.names)
      (ha : Given c.arguments words) : Typed c (name.toList :: words)

/-- The lines that a command may be typed as. -/
def Line (c : Command) (line : String) : Prop := ∃ words, Runs line.toList words ∧ Typed c words

variable {c : Command} {v : Verb} {word : List Char} {ws : List (List Char)} {a : Argument}
  {args : List Argument}

@[simp] theorem given_nil : Given [] ws :=
  ⟨[], ws, rfl, .nil⟩

@[simp] theorem not_given_nil : ¬ Given (a :: args) [] := by
  rintro ⟨given, surplus, hw, hg⟩
  cases hg
  cases hw

@[simp] theorem given_cons : Given (a :: args) (word :: ws) ↔ a.Typed word ∧ Given args ws := by
  constructor
  · rintro ⟨given, surplus, hw, hg⟩
    cases hg with
    | cons ha hrest =>
      obtain ⟨rfl, rfl⟩ := List.cons.inj hw
      exact ⟨ha, _, surplus, rfl, hrest⟩
  · rintro ⟨ha, given, surplus, rfl, hg⟩
    exact ⟨word :: given, surplus, rfl, .cons ha hg⟩

def verb : Command → Verb
  | connect _ => .connect
  | disconnect => .disconnect
  | layout => .layout
  | bootstrap _ => .bootstrap
  | epoch _ => .epoch
  | prepare _ _ => .prepare
  | retry _ => .retry
  | propose _ _ _ => .propose
  | commit _ _ _ => .commit
  | help => .help

/-- The verb of a command is spelled as the command may begin. -/
theorem names_eq (c : Command) : c.names = [c.verb.long, c.verb.short] := by
  cases c <;> rfl

/-- Both words of a verb name it, and no other word. -/
theorem ofWord?_eq_some_iff :
    Verb.ofWord? word = some v ↔ word = v.long.toList ∨ word = v.short.toList := by
  constructor
  · intro h
    have hv := List.find?_some h
    simp only [Bool.or_eq_true, decide_eq_true_eq] at hv
    exact hv.imp Eq.symm Eq.symm
  · rintro (rfl | rfl) <;> cases v <;> decide

theorem ofWord?_eq_verb_iff :
    Verb.ofWord? word = some c.verb ↔ ∃ name ∈ c.names, name.toList = word := by
  rw [ofWord?_eq_some_iff, names_eq]
  simp [eq_comm]

theorem eq_ofList_iff {p : String} : String.ofList word = p ↔ word = p.toList := by
  constructor
  · rintro rfl
    exact String.toList_ofList.symm
  · rintro rfl
    exact String.ofList_toList

theorem verb_and_given_of_ofWords? (h : ofWords? v ws = some c) :
    c.verb = v ∧ Given c.arguments ws := by
  unfold ofWords? at h
  split at h
  case h_1 | h_2 | h_3 =>
    obtain rfl := Option.some.inj h
    exact ⟨rfl, given_nil⟩
  case h_4 port rest =>
    obtain ⟨n, hn, rfl⟩ := Option.map_eq_some_iff.mp h
    exact ⟨rfl, given_cons.mpr ⟨word16?_eq_some_iff.mp hn, given_nil⟩⟩
  case h_5 path rest =>
    obtain rfl := Option.some.inj h
    exact ⟨rfl, given_cons.mpr ⟨eq_ofList_iff.mp rfl, given_nil⟩⟩
  case h_6 | h_7 =>
    obtain ⟨n, hn, rfl⟩ := Option.map_eq_some_iff.mp h
    exact ⟨rfl, given_cons.mpr ⟨word64?_eq_some_iff.mp hn, given_nil⟩⟩
  case h_8 sequence epoch rest =>
    obtain ⟨s, hs, h⟩ := Option.bind_eq_some_iff.mp h
    obtain ⟨e, he, h⟩ := Option.bind_eq_some_iff.mp h
    obtain rfl := Option.some.inj h
    refine ⟨rfl, given_cons.mpr ⟨word64?_eq_some_iff.mp hs, given_cons.mpr ⟨?_, given_nil⟩⟩⟩
    exact word64?_eq_some_iff.mp he
  case h_9 | h_10 =>
    obtain ⟨s, hs, h⟩ := Option.bind_eq_some_iff.mp h
    obtain ⟨e, he, h⟩ := Option.bind_eq_some_iff.mp h
    obtain rfl := Option.some.inj h
    refine ⟨rfl, given_cons.mpr ⟨word64?_eq_some_iff.mp hs, given_cons.mpr ⟨?_, ?_⟩⟩⟩
    · exact word64?_eq_some_iff.mp he
    · exact given_cons.mpr ⟨eq_ofList_iff.mp rfl, given_nil⟩
  case h_11 => cases h

/-- Words in front of which the form of an argument stands. -/
theorem exists_of_given (h : Given (a :: args) ws) :
    ∃ word rest, ws = word :: rest ∧ a.Typed word ∧ Given args rest := by
  cases ws with
  | nil => exact absurd h not_given_nil
  | cons word rest =>
    obtain ⟨ha, hrest⟩ := given_cons.mp h
    exact ⟨word, rest, rfl, ha, hrest⟩

theorem ofWords?_of_given (h : Given c.arguments ws) : ofWords? c.verb ws = some c := by
  cases c with
  | disconnect | layout | help => rfl
  | connect port =>
    obtain ⟨p, rest, rfl, hp, _⟩ := exists_of_given h
    simp [verb, ofWords?, word16?_eq_some_iff.mpr hp]
  | bootstrap path =>
    obtain ⟨_, rest, rfl, hp, _⟩ := exists_of_given h
    simp [verb, ofWords?, eq_ofList_iff.mpr hp]
  | epoch e | retry e =>
    obtain ⟨e, rest, rfl, he, _⟩ := exists_of_given h
    simp [verb, ofWords?, word64?_eq_some_iff.mpr he]
  | prepare s e =>
    obtain ⟨s, rest, rfl, hs, h⟩ := exists_of_given h
    obtain ⟨e, rest, rfl, he, _⟩ := exists_of_given h
    simp [verb, ofWords?, word64?_eq_some_iff.mpr hs, word64?_eq_some_iff.mpr he]
  | propose s e path | commit s e path =>
    obtain ⟨s, rest, rfl, hs, h⟩ := exists_of_given h
    obtain ⟨e, rest, rfl, he, h⟩ := exists_of_given h
    obtain ⟨_, rest, rfl, hp, _⟩ := exists_of_given h
    simp [verb, ofWords?, word64?_eq_some_iff.mpr hs, word64?_eq_some_iff.mpr he,
      eq_ofList_iff.mpr hp]

/-- A verb and the words after it make a command exactly if it has that verb and the words begin
with the forms of its arguments. -/
theorem ofWords?_eq_some_iff : ofWords? v ws = some c ↔ c.verb = v ∧ Given c.arguments ws := by
  constructor
  · exact verb_and_given_of_ofWords?
  · rintro ⟨rfl, h⟩
    exact ofWords?_of_given h

theorem parse?_eq_some_iff {line : String} : parse? line = some c ↔ Line c line := by
  have hl (words : List (List Char)) : Runs line.toList words ↔ Text.words line.toList = words :=
    Text.words_eq_iff.symm
  simp only [Line, hl]
  unfold parse?
  constructor
  · intro h
    split at h
    · cases h
    · rename_i word words hw
      obtain ⟨v, hv, h⟩ := Option.bind_eq_some_iff.mp h
      obtain ⟨rfl, ha⟩ := ofWords?_eq_some_iff.mp h
      obtain ⟨name, hn, rfl⟩ := ofWord?_eq_verb_iff.mp hv
      exact ⟨name.toList :: words, hw, .mk hn ha⟩
  · rintro ⟨_, hw, ⟨hn, ha⟩⟩
    rw [hw]
    have hv := ofWord?_eq_verb_iff.mpr ⟨_, hn, rfl⟩
    exact Option.bind_eq_some_iff.mpr ⟨c.verb, hv, ofWords?_of_given ha⟩

/-- A line is read as a command exactly if it is one of the lines that the command may be typed as,
and every line that is no command's is refused. -/
theorem parse?_exact (line : String) :
    (∀ c, parse? line = some c ↔ Line c line) ∧ (parse? line = none ↔ ∀ c, ¬ Line c line) := by
  refine ⟨fun c => parse?_eq_some_iff, ?_⟩
  rw [Option.eq_none_iff_forall_ne_some]
  exact forall_congr' fun c => not_congr parse?_eq_some_iff

example : parse? "m\t+007 18446744073709551615\u3000l.json now" =
    some (commit 7 18446744073709551615 "l.json") := by decide

example : parse? "connect 65536" = none := by decide

end Synod.Shell.Command
