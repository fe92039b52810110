import Synod.Wire.Basic

/-! Faults: of the operating system, of stable storage, and of a node or a connection to one. -/
namespace Synod

/-- Refusals of the operating system. -/
inductive OsError where
  | notFound
  | fileExists
  | notADirectory
  | isADirectory
  | nameTooLong
  | addressInUse
  | networkUnreachable
  | connectionRefused
deriving DecidableEq, Inhabited

namespace OsError

def code : OsError → Nat
  | notFound => 2
  | fileExists => 17
  | notADirectory => 20
  | isADirectory => 21
  | nameTooLong => 36
  | addressInUse => 98
  | networkUnreachable => 101
  | connectionRefused => 111

def all : List OsError :=
  [notFound, fileExists, notADirectory, isADirectory, nameTooLong, addressInUse,
    networkUnreachable, connectionRefused]

def ofCode? (n : Nat) : Option OsError := all.find? fun e => e.code = n

def description : OsError → String
  | notFound => "No such file or directory"
  | fileExists => "File exists"
  | notADirectory => "Not a directory"
  | isADirectory => "Is a directory"
  | nameTooLong => "File name too long"
  | addressInUse => "Address already in use"
  | networkUnreachable => "Network is unreachable"
  | connectionRefused => "Connection refused"

def message (e : OsError) : String := s!"{e.description} (os error {e.code})"

end OsError

/-- A failed input or output operation. -/
inductive IoError where
  | os (cause : OsError)
  | nulInName
  | oversizedFrame
  | cutFrame
  | other (text : String)
deriving DecidableEq, Inhabited

def IoError.message : IoError → String
  | os cause => cause.message
  | nulInName => "file name contained an unexpected NUL byte"
  | oversizedFrame => "frame size too big"
  | cutFrame => "bytes remaining on stream"
  | other text => text

/-- Why stable storage could not be opened, read or written. -/
inductive StorageError where
  | io (cause : IoError)
  | encode (cause : WireError)
  | decode (cause : WireError)
  | truncated (expected actual : Nat)
  | badMagic
  | unsupportedVersion (version : UInt8)
  | locked (path : String)
  | checksum (expected actual : UInt32)
deriving DecidableEq, Inhabited

namespace StorageError

/-- A number in at least eight hexadecimal digits. -/
def word (n : UInt32) : String :=
  let digits := Nat.toDigits 16 n.toNat
  "0x" ++ String.ofList (List.replicate (8 - digits.length) '0' ++ digits)

def detail : StorageError → String
  | io cause => cause.message
  | encode cause => s!"failed to serialize state: {cause.message}"
  | decode cause => s!"failed to deserialize state: {cause.message}"
  | truncated expected actual => s!"record truncated: expected {expected} bytes, found {actual}"
  | badMagic => "not an acceptor state record"
  | unsupportedVersion version => s!"unsupported record version {version.toNat}"
  | locked path => s!"{path} is in use by another acceptor"
  | checksum expected actual =>
    s!"checksum mismatch: expected {word expected}, got {word actual}"

def message (e : StorageError) : String := "[STORAGE ERROR]: " ++ e.detail

/-- The name of the kind of fault. -/
def kind : StorageError → String
  | io _ => "Io"
  | encode _ => "Encode"
  | decode _ => "Decode"
  | truncated _ _ => "Truncated"
  | badMagic => "BadMagic"
  | unsupportedVersion _ => "UnsupportedVersion"
  | locked _ => "Locked"
  | checksum _ _ => "Checksum"

end StorageError

/-- A fault of a node or of a connection to one. -/
inductive Error where
  | storage (cause : StorageError)
  | io (cause : IoError)
  | codec (cause : WireError)
  | unavailable
  | closed
  | remote (text : String)
deriving DecidableEq, Inhabited

namespace Error

def message : Error → String
  | storage cause => cause.message
  | io cause => s!"[IO ERROR]: {cause.message}"
  | codec cause => s!"[CODEC ERROR]: {cause.message}"
  | unavailable => "[INTERNAL ERROR]: acceptor worker is not running"
  | closed => "connection closed"
  | remote text => s!"request failed on remote node: {text}"

def kind : Error → String
  | storage cause => "Storage." ++ cause.kind
  | io _ => "Io"
  | codec _ => "Codec"
  | unavailable => "Unavailable"
  | closed => "Closed"
  | remote _ => "Remote"

end Error
end Synod
