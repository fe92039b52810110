import Synod.Json.Error

/-!
Passing over a JSON value of any depth without reading it, one byte at a time. Numbers are not
evaluated and the contents of strings are not decoded, so that only their syntax can be at fault.
-/
namespace Synod.Json.Skip

/-- What a value may be nested in. -/
inductive Frame where
  | list
  | object
deriving DecidableEq

/-- What is due next. -/
inductive Mode where
  | value
  /-- The first item of a list, or its end. -/
  | firstItem
  /-- The first key of an object, or its end. -/
  | firstKey
  | key
  | colon
  /-- A comma or the end of what the value is nested in. -/
  | after
  /-- The remaining letters of a word. -/
  | word (letters : Bytes)
  | minus
  | zero
  | integer
  | point
  | fraction
  | exponent
  | sign
  | power
  | text (isKey : Bool)
  | escape (isKey : Bool)
  /-- Hexadecimal digits still due, and whether those so far were digits. -/
  | hex (isKey : Bool) (due : Nat) (good : Bool)
deriving DecidableEq

/-- What a byte does. -/
inductive Move where
  | go (mode : Mode) (stack : List Frame)
  /-- The value ended before this byte. -/
  | stop
  /-- The value ends with this byte. -/
  | stopAfter

/-- After a value that ends with the byte at hand. -/
def closed : List Frame → Move
  | [] => .stopAfter
  | stack => .go .after stack

def stepAfter (stack : List Frame) (b : UInt8) : Except Error Move :=
  match stack with
  | [] => .ok .stop
  | .list :: outer =>
    if isSpace b then .ok (.go .after stack)
    else if b = code ',' then .ok (.go .value stack)
    else if b = code ']' then .ok (closed outer)
    else .error .expectedCommaOrBracket
  | .object :: outer =>
    if isSpace b then .ok (.go .after stack)
    else if b = code ',' then .ok (.go .key stack)
    else if b = code '\x7d' then .ok (closed outer)
    else .error .expectedCommaOrBrace

/-- The byte that a value starts with. -/
def start (stack : List Frame) (b : UInt8) : Except Error Move :=
  if b = code 'n' then .ok (.go (.word [code 'u', code 'l', code 'l']) stack)
  else if b = code 't' then .ok (.go (.word [code 'r', code 'u', code 'e']) stack)
  else if b = code 'f' then .ok (.go (.word [code 'a', code 'l', code 's', code 'e']) stack)
  else if b = code '-' then .ok (.go .minus stack)
  else if b = code '0' then .ok (.go .zero stack)
  else if isDigit b then .ok (.go .integer stack)
  else if b = code '"' then .ok (.go (.text false) stack)
  else if b = code '[' then .ok (.go .firstItem (.list :: stack))
  else if b = code '\x7b' then .ok (.go .firstKey (.object :: stack))
  else .error .expectedValue

def isExponentLetter (b : UInt8) : Bool := b = code 'e' || b = code 'E'

/-- The letters that may follow a backslash, other than the one that announces digits. -/
def escapeLetters : List Char := ['"', '\\', '/', 'b', 'f', 'n', 'r', 't']

def step (stack : List Frame) (b : UInt8) : Mode → Except Error Move
  | .value => if isSpace b then .ok (.go .value stack) else start stack b
  | .firstItem =>
    if isSpace b then .ok (.go .firstItem stack)
    else if b = code ']' then .ok (closed (stack.drop 1))
    else start stack b
  | .firstKey =>
    if isSpace b then .ok (.go .firstKey stack)
    else if b = code '\x7d' then .ok (closed (stack.drop 1))
    else if b = code '"' then .ok (.go (.text true) stack)
    else .error .keyNotText
  | .key =>
    if isSpace b then .ok (.go .key stack)
    else if b = code '"' then .ok (.go (.text true) stack)
    else .error .keyNotText
  | .colon =>
    if isSpace b then .ok (.go .colon stack)
    else if b = code ':' then .ok (.go .value stack)
    else .error .expectedColon
  | .after => stepAfter stack b
  | .word [] => stepAfter stack b
  | .word [c] => if b = c then .ok (closed stack) else .error .expectedWord
  | .word (c :: letters) =>
    if b = c then .ok (.go (.word letters) stack) else .error .expectedWord
  | .minus =>
    if b = code '0' then .ok (.go .zero stack)
    else if isDigit b then .ok (.go .integer stack)
    else .error .invalidNumber
  | .zero =>
    if isDigit b then .error .invalidNumber
    else if b = code '.' then .ok (.go .point stack)
    else if isExponentLetter b then .ok (.go .exponent stack)
    else stepAfter stack b
  | .integer =>
    if isDigit b then .ok (.go .integer stack)
    else if b = code '.' then .ok (.go .point stack)
    else if isExponentLetter b then .ok (.go .exponent stack)
    else stepAfter stack b
  | .point => if isDigit b then .ok (.go .fraction stack) else .error .invalidNumber
  | .fraction =>
    if isDigit b then .ok (.go .fraction stack)
    else if isExponentLetter b then .ok (.go .exponent stack)
    else stepAfter stack b
  | .exponent =>
    if b = code '+' ∨ b = code '-' then .ok (.go .sign stack)
    else if isDigit b then .ok (.go .power stack)
    else .error .invalidNumber
  | .sign => if isDigit b then .ok (.go .power stack) else .error .invalidNumber
  | .power => if isDigit b then .ok (.go .power stack) else stepAfter stack b
  | .text isKey =>
    if b = code '"' then .ok (if isKey then .go .colon stack else closed stack)
    else if b = code '\\' then .ok (.go (.escape isKey) stack)
    else if b < 0x20 then .error .controlCharacter
    else .ok (.go (.text isKey) stack)
  | .escape isKey =>
    if b = code 'u' then .ok (.go (.hex isKey 4 true) stack)
    else if (escapeLetters.map code).contains b then .ok (.go (.text isKey) stack)
    else .error .invalidEscape
  | .hex isKey due good =>
    let good := good && (Bytes.hexValue? (Char.ofNat b.toNat)).isSome
    if 1 < due then .ok (.go (.hex isKey (due - 1) good) stack)
    else if good then .ok (.go (.text isKey) stack)
    else .error .invalidEscape

/-- What is missing where the text ends inside a list or an object. -/
def unclosed : List Frame → Except Error Bytes
  | [] => .ok []
  | .list :: _ => .error .endInList
  | .object :: _ => .error .endInObject

def finish (stack : List Frame) : Mode → Except Error Bytes
  | .value | .word _ => .error .endInValue
  | .firstItem => .error .endInList
  | .firstKey | .key | .colon => .error .endInObject
  | .minus | .point | .exponent | .sign => .error .invalidNumber
  | .after | .zero | .integer | .fraction | .power => unclosed stack
  | .text _ | .escape _ | .hex _ _ _ => .error .endInText

/-- Goes on to the end of the outermost value and gives what follows it. -/
def run : Mode → List Frame → Bytes → Except Error Bytes
  | mode, stack, [] => finish stack mode
  | mode, stack, b :: bs =>
    match step stack b mode with
    | .error e => .error e
    | .ok (.go mode stack) => run mode stack bs
    | .ok .stop => .ok (b :: bs)
    | .ok .stopAfter => .ok bs

def value (bs : Bytes) : Except Error Bytes := run .value [] bs

end Synod.Json.Skip
