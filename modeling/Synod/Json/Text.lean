import Synod.Json.Error

/-! JSON strings after their opening quote, as read and as written. -/
namespace Synod.Json

def hexDigit? (b : UInt8) : Option Nat := Bytes.hexValue? (Char.ofNat b.toNat)

/-- The number that four hexadecimal digits spell. -/
def fourDigits (a b c d : UInt8) : Except Error Nat :=
  match hexDigit? a, hexDigit? b, hexDigit? c, hexDigit? d with
  | some a, some b, some c, some d => .ok (((a * 16 + b) * 16 + c) * 16 + d)
  | _, _, _, _ => .error .invalidEscape

def isLeading (n : Nat) : Bool := 0xD800 ≤ n && n ≤ 0xDBFF

def isTrailing (n : Nat) : Bool := 0xDC00 ≤ n && n ≤ 0xDFFF

/-- The character that a pair of surrogates stands for. -/
def paired (leading trailing : Nat) : Char :=
  Char.ofNat ((leading - 0xD800) * 1024 + (trailing - 0xDC00) + 0x10000)

/-- What a letter after a backslash stands for. -/
def simpleEscape? (b : UInt8) : Option UInt8 :=
  if b = code '"' ∨ b = code '\\' ∨ b = code '/' then some b
  else if b = code 'b' then some 0x08
  else if b = code 'f' then some 0x0C
  else if b = code 'n' then some 0x0A
  else if b = code 'r' then some 0x0D
  else if b = code 't' then some 0x09
  else none

/-- Adds the bytes of a character to those read so far, which are in reverse. -/
def pushChar (done : Bytes) (c : Char) : Bytes := (String.utf8EncodeChar c).reverse ++ done

/-- The bytes of a string up to its closing quote, with those read so far in reverse. -/
def textBytes : Bytes → Parser Bytes
  | _, [] => .error .endInText
  | done, b :: bs =>
    if b = code '"' then .ok (done.reverse, bs)
    else if b = code '\\' then
      match bs with
      | [] => .error .endInText
      | e :: bs =>
        match simpleEscape? e with
        | some c => textBytes (c :: done) bs
        | none =>
          if e ≠ code 'u' then .error .invalidEscape
          else match bs with
            | h₁ :: h₂ :: h₃ :: h₄ :: bs =>
              match fourDigits h₁ h₂ h₃ h₄ with
              | .error e => .error e
              | .ok n =>
                if isTrailing n then .error .loneSurrogate
                else if isLeading n then
                  match bs with
                  | [] => .error .endInText
                  | s :: bs =>
                    if s ≠ code '\\' then .error .cutSurrogatePair
                    else match bs with
                      | [] => .error .endInText
                      | u :: bs =>
                        if u ≠ code 'u' then .error .cutSurrogatePair
                        else match bs with
                          | k₁ :: k₂ :: k₃ :: k₄ :: bs =>
                            match fourDigits k₁ k₂ k₃ k₄ with
                            | .error e => .error e
                            | .ok m =>
                              if isTrailing m then textBytes (pushChar done (paired n m)) bs
                              else .error .loneSurrogate
                          | _ => .error .endInText
                else textBytes (pushChar done (Char.ofNat n)) bs
            | _ => .error .endInText
    else if b < 0x20 then .error .controlCharacter
    else textBytes (b :: done) bs

/-- A string after its opening quote. -/
def text : Parser String := fun bs => do
  let (content, rest) ← textBytes [] bs
  match Text.decode content with
  | .ok s => return (s, rest)
  | .error _ => .error .invalidCodePoint

/-- How a character is written: control characters, quotes and backslashes escaped, all else as it
is. -/
def writtenChar (c : Char) : List Char :=
  if c = '"' ∨ c = '\\' then ['\\', c]
  else if c = '\x08' then ['\\', 'b']
  else if c = '\x0C' then ['\\', 'f']
  else if c = '\n' then ['\\', 'n']
  else if c = '\r' then ['\\', 'r']
  else if c = '\t' then ['\\', 't']
  else if c.toNat < 0x20 then
    ['\\', 'u', '0', '0', Bytes.hexDigit (c.toNat / 16), Bytes.hexDigit c.toNat]
  else [c]

def writtenText (s : String) : List Char := '"' :: s.toList.flatMap writtenChar ++ ['"']

end Synod.Json
