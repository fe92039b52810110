import Synod.Error
import Synod.Record.Checksum
import Synod.Wire.Message

/-!
The record that stable storage holds: a mark, a version, the length and the checksum of the payload,
and the payload, which is the binary form of a state. The first check that fails is the one
reported.
-/
namespace Synod.Record

/-- The four letters that a record begins with. -/
def mark : Bytes := [0x4C, 0x41, 0x59, 0x4F]

def version : UInt8 := 1

/-- Mark, version, length and checksum. -/
def headerLength : Nat := 13

def header (payload : Bytes) : Bytes :=
  mark ++ [version] ++ Bytes.littleEndian 4 payload.length
    ++ Bytes.littleEndian 4 (Checksum.of payload).toNat

def wrap (payload : Bytes) : Bytes := header payload ++ payload

def encode (s : State) : Bytes := wrap (Wire.encode s)

/-- The payload of an intact record. -/
def unwrap (record : Bytes) : Except StorageError Bytes :=
  if record.length < headerLength then .error (.truncated headerLength record.length)
  else if record.take 4 ≠ mark then .error .badMagic
  else
    let found := (record.drop 4).headD 0
    if found ≠ version then .error (.unsupportedVersion found)
    else
      let length := Bytes.ofLittleEndian ((record.drop 5).take 4)
      let payload := record.drop headerLength
      if payload.length ≠ length then .error (.truncated (headerLength + length) record.length)
      else
        let expected := UInt32.ofNat (Bytes.ofLittleEndian ((record.drop 9).take 4))
        let actual := Checksum.of payload
        if actual ≠ expected then .error (.checksum expected actual) else .ok payload

def decode (record : Bytes) : Except StorageError State :=
  match unwrap record with
  | .error e => .error e
  | .ok payload => (Wire.decode payload).mapError .decode

end Synod.Record
