import Synod.Json.Error
import Synod.Layout

/-!
The grammar of JSON texts, as relations between values and the bytes that they may be written as,
and what an object must have for its members to be those of a layout.
-/
namespace Synod.Json

/-- Blanks between tokens, or nothing. -/
def Gap (bs : Bytes) : Prop := ∀ b ∈ bs, b ∈ [' ', '\t', '\n', '\r'].map code

/-- A hexadecimal digit of a value, of either case. -/
def HexDigit (n : Nat) (b : UInt8) : Prop :=
  n < 16 ∧ (b = code n.digitChar ∨ b = code n.digitChar.toUpper)

instance (bs : Bytes) : Decidable (Gap bs) := List.decidableBAll _ bs

instance (n : Nat) (b : UInt8) : Decidable (HexDigit n b) := inferInstanceAs (Decidable (_ ∧ _))

/-- Four hexadecimal digits of a number. -/
inductive Hex : Nat → Bytes → Prop where
  | mk {n₁ n₂ n₃ n₄ : Nat} {b₁ b₂ b₃ b₄ : UInt8} (h₁ : HexDigit n₁ b₁) (h₂ : HexDigit n₂ b₂)
      (h₃ : HexDigit n₃ b₃) (h₄ : HexDigit n₄ b₄) :
      Hex (n₁ * 4096 + n₂ * 256 + n₃ * 16 + n₄) [b₁, b₂, b₃, b₄]

/-- What may stand after a backslash, and the character that it stands for there. -/
def shortEscapes : List (Char × Char) :=
  [('"', '"'), ('\\', '\\'), ('/', '/'), ('b', '\x08'), ('f', '\x0C'), ('n', '\n'), ('r', '\r'),
    ('t', '\t')]

/-- How a character may be written in a string. -/
inductive Spelled : Char → Bytes → Prop where
  | plain {c : Char} (h : 0x20 ≤ c.toNat) (hq : c ≠ '"') (hb : c ≠ '\\') :
      Spelled c (String.utf8EncodeChar c)
  | short {e c : Char} (h : (e, c) ∈ shortEscapes) : Spelled c [code '\\', code e]
  | hex {c : Char} {digits : Bytes} (h : Hex c.toNat digits) :
      Spelled c (code '\\' :: code 'u' :: digits)
  /-- A character beyond the first 65536, as a pair of surrogates. -/
  | pair {c : Char} {high low : Bytes} (hc : 0x10000 ≤ c.toNat)
      (hh : Hex (0xD800 + (c.toNat - 0x10000) / 0x400) high)
      (hl : Hex (0xDC00 + (c.toNat - 0x10000) % 0x400) low) :
      Spelled c (code '\\' :: code 'u' :: high ++ code '\\' :: code 'u' :: low)

/-- What stands between the quotes of a string. -/
inductive Content : List Char → Bytes → Prop where
  | nil : Content [] []
  | cons {c : Char} {cs : List Char} {bs rest : Bytes} (hc : Spelled c bs) (h : Content cs rest) :
      Content (c :: cs) (bs ++ rest)

/-- How a text may be written. -/
inductive Quoted (s : String) : Bytes → Prop where
  | mk {content : Bytes} (h : Content s.toList content) :
      Quoted s (code '"' :: content ++ [code '"'])

section Lists

variable {α : Type} (form : α → Bytes → Prop)

/-- A form with blanks around it. -/
inductive Spaced (a : α) : Bytes → Prop where
  | mk {before bs after : Bytes} (hb : Gap before) (h : form a bs) (ha : Gap after) :
      Spaced a (before ++ bs ++ after)

/-- One or more forms with commas between them. -/
inductive Commas : List α → Bytes → Prop where
  | one {a : α} {bs : Bytes} (h : form a bs) : Commas [a] bs
  | more {a : α} {as : List α} {bs rest : Bytes} (h : form a bs) (hs : Commas as rest) :
      Commas (a :: as) (bs ++ code ',' :: rest)

/-- Forms in brackets, with commas between them and blanks around each. -/
inductive Bracketed (first last : Char) : List α → Bytes → Prop where
  | empty {gap : Bytes} (h : Gap gap) : Bracketed first last [] (code first :: gap ++ [code last])
  | full {as : List α} {bs : Bytes} (h : Commas (Spaced form) as bs) :
      Bracketed first last as (code first :: bs ++ [code last])

end Lists

/-- How a list of texts may be written. -/
def TextList (ss : List String) (bs : Bytes) : Prop := Bracketed Quoted '[' ']' ss bs

section Numerals

/-- One or more decimal digits. -/
def Digits (bs : Bytes) : Prop := bs ≠ [] ∧ ∀ b ∈ bs, code '0' ≤ b ∧ b ≤ code '9'

/-- The digits of a number before its point. The first is zero only if it is the only one. -/
def Whole (bs : Bytes) : Prop := bs = [code '0'] ∨ Digits bs ∧ bs.head? ≠ some (code '0')

def Fraction (bs : Bytes) : Prop := bs = [] ∨ ∃ ds, Digits ds ∧ bs = code '.' :: ds

def Exponent (bs : Bytes) : Prop :=
  bs = [] ∨ ∃ letter sign ds, letter ∈ ['e', 'E'].map code ∧
    sign ∈ [[], [code '+'], [code '-']] ∧ Digits ds ∧ bs = letter :: sign ++ ds

/-- How numbers are written. -/
inductive Numeral : Bytes → Prop where
  | mk {sign whole fraction exponent : Bytes} (hs : sign ∈ [[], [code '-']]) (hw : Whole whole)
      (hf : Fraction fraction) (he : Exponent exponent) :
      Numeral (sign ++ whole ++ fraction ++ exponent)

end Numerals

section Syntax

/-- What a string may be made of where nobody asks for its text. -/
inductive Piece : Bytes → Prop where
  | plain {b : UInt8} (h : code ' ' ≤ b) (hq : b ≠ code '"') (hb : b ≠ code '\\') : Piece [b]
  | short {e c : Char} (h : (e, c) ∈ shortEscapes) : Piece [code '\\', code e]
  | hex {n : Nat} {digits : Bytes} (h : Hex n digits) : Piece (code '\\' :: code 'u' :: digits)

/-- What stands between the quotes of a string, be it a text or not. -/
inductive Pieces : Bytes → Prop where
  | nil : Pieces []
  | cons {bs rest : Bytes} (hp : Piece bs) (h : Pieces rest) : Pieces (bs ++ rest)

/-- The phrases of which well-formed JSON is made. -/
inductive Part where
  | value
  /-- A value with blanks around it. -/
  | item
  | items
  | member
  | members

/-- Well-formed JSON, of any depth. -/
inductive Form : Part → Bytes → Prop where
  | word {letters : String} (h : letters ∈ ["null", "true", "false"]) :
      Form .value (letters.toList.map code)
  | number {bs : Bytes} (h : Numeral bs) : Form .value bs
  | text {content : Bytes} (h : Pieces content) : Form .value (code '"' :: content ++ [code '"'])
  | emptyList {gap : Bytes} (h : Gap gap) : Form .value (code '[' :: gap ++ [code ']'])
  | list {bs : Bytes} (h : Form .items bs) : Form .value (code '[' :: bs ++ [code ']'])
  | emptyObject {gap : Bytes} (h : Gap gap) : Form .value (code '\x7b' :: gap ++ [code '\x7d'])
  | object {bs : Bytes} (h : Form .members bs) : Form .value (code '\x7b' :: bs ++ [code '\x7d'])
  | item {before bs after : Bytes} (hb : Gap before) (h : Form .value bs) (ha : Gap after) :
      Form .item (before ++ bs ++ after)
  | lastItem {bs : Bytes} (h : Form .item bs) : Form .items bs
  | moreItems {bs rest : Bytes} (h : Form .item bs) (hs : Form .items rest) :
      Form .items (bs ++ code ',' :: rest)
  | member {before key after bs : Bytes} (hb : Gap before) (hk : Pieces key) (ha : Gap after)
      (h : Form .item bs) :
      Form .member (before ++ code '"' :: key ++ code '"' :: after ++ code ':' :: bs)
  | lastMember {bs : Bytes} (h : Form .member bs) : Form .members bs
  | moreMembers {bs rest : Bytes} (h : Form .member bs) (hs : Form .members rest) :
      Form .members (bs ++ code ',' :: rest)

end Syntax

section Objects

/-- A member of an object: its key, and its value as it is written. -/
structure Entry where
  key : String
  value : Bytes

/-- How a member may be written. -/
inductive EntryForm (e : Entry) : Bytes → Prop where
  | mk {key after before : Bytes} (hk : Quoted e.key key) (ha : Gap after) (hb : Gap before) :
      EntryForm e (key ++ after ++ code ':' :: before ++ e.value)

/-- A text that is an object with some members, in order. -/
def Document (entries : List Entry) (bs : Bytes) : Prop :=
  Spaced (Bracketed EntryForm '\x7b' '\x7d') entries bs

/-- The values that an object gives to a key. -/
def valuesOf (key : String) (entries : List Entry) : List Bytes :=
  (entries.filter fun e => e.key = key).map Entry.value

/-- The keys of the members of a layout. -/
def fieldKeys : List String := ["epoch", "layout_servers", "sequencers", "log_servers"]

/-- Values of a key that give a list: one that is that list, or none if it is empty. -/
def GivesList (values : List Bytes) (ss : List String) : Prop :=
  (∃ v, values = [v] ∧ TextList ss v) ∨ values = [] ∧ ss = []

/-- The members of an object that give a layout. Those with other keys have any values. -/
structure Describes (entries : List Entry) (l : Layout) : Prop where
  epoch : valuesOf "epoch" entries = [(Nat.toDigits 10 l.epoch.toNat).map code]
  layoutServers : GivesList (valuesOf "layout_servers" entries) l.layoutServers
  sequencers : GivesList (valuesOf "sequencers" entries) l.sequencers
  logServers : GivesList (valuesOf "log_servers" entries) l.logServers
  others : ∀ e ∈ entries, e.key ∉ fieldKeys → Form .value e.value

end Objects

end Synod.Json
