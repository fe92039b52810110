import Synod.Decimal.Shortest
import Synod.Error
import Synod.Text.Shown

/-! Why a text is not the JSON form of a layout. -/
namespace Synod.Json

/-- A number as it is read: an integer that fits a machine word, or a double. -/
inductive Number where
  | natural (n : UInt64)
  | negative (magnitude : Nat)
  | double (negative : Bool) (magnitude : Binary64)
deriving DecidableEq, Inhabited

/-- What stands where something else is due. -/
inductive Found where
  | null
  | boolean (value : Bool)
  | number (value : Number)
  | text (value : String)
  | sequence
  | object
deriving DecidableEq, Inhabited

inductive Expected where
  | natural
  | text
  | sequence
  | layout
deriving DecidableEq, Inhabited

inductive Error where
  | endInValue
  | endInObject
  | endInList
  | endInText
  | expectedValue
  | expectedWord
  | expectedColon
  | expectedCommaOrBrace
  | expectedCommaOrBracket
  | trailingComma
  | trailingCharacters
  | keyNotText
  | invalidNumber
  | numberOutOfRange
  | invalidEscape
  | loneSurrogate
  | cutSurrogatePair
  | invalidCodePoint
  | controlCharacter
  | missingField (name : String)
  | duplicateField (name : String)
  | wrongType (found : Found) (expected : Expected)
  | wrongValue (found : Number) (expected : Expected)
  | noFields
deriving DecidableEq, Inhabited

def Number.text : Number → String
  | natural n => s!"integer `{n.toNat}`"
  | negative n => s!"integer `-{n}`"
  | double false m => s!"floating point `{m.text}`"
  | double true m => s!"floating point `-{m.text}`"

def Found.description : Found → String
  | null => "null"
  | boolean b => s!"boolean `{shown b}`"
  | number n => n.text
  | text s => s!"string {shown s}"
  | sequence => "sequence"
  | object => "map"

def Expected.description : Expected → String
  | natural => "u64"
  | text => "a string"
  | sequence => "a sequence"
  | layout => "struct ClusterLayout"

def Error.message : Error → String
  | endInValue => "EOF while parsing a value"
  | endInObject => "EOF while parsing an object"
  | endInList => "EOF while parsing a list"
  | endInText => "EOF while parsing a string"
  | expectedValue => "expected value"
  | expectedWord => "expected ident"
  | expectedColon => "expected `:`"
  | expectedCommaOrBrace => "expected `,` or `\x7d`"
  | expectedCommaOrBracket => "expected `,` or `]`"
  | trailingComma => "trailing comma"
  | trailingCharacters => "trailing characters"
  | keyNotText => "key must be a string"
  | invalidNumber => "invalid number"
  | numberOutOfRange => "number out of range"
  | invalidEscape => "invalid escape"
  | loneSurrogate => "lone leading surrogate in hex escape"
  | cutSurrogatePair => "unexpected end of hex escape"
  | invalidCodePoint => "invalid unicode code point"
  | controlCharacter => "control character (\\u0000-\\u001F) found while parsing a string"
  | missingField name => s!"missing field `{name}`"
  | duplicateField name => s!"duplicate field `{name}`"
  | wrongType found expected =>
    s!"invalid type: {found.description}, expected {expected.description}"
  | wrongValue found expected =>
    s!"invalid value: {found.text}, expected {expected.description}"
  | noFields => "invalid length 0, expected struct ClusterLayout with 4 elements"

/-- Takes a part off the front of a text. -/
abbrev Parser (α : Type) := Bytes → Except Error (α × Bytes)

def code (c : Char) : UInt8 := UInt8.ofNat c.toNat

def isSpace (b : UInt8) : Bool := b = 0x20 || b = 0x0A || b = 0x09 || b = 0x0D

def isDigit (b : UInt8) : Bool := 0x30 ≤ b && b ≤ 0x39

def digit (b : UInt8) : Nat := b.toNat - 0x30

def skipSpace (bs : Bytes) : Bytes := bs.dropWhile isSpace

end Synod.Json
