import Synod.Proofs.Codec
import Synod.Record

/-! An intact record gives its state back. -/
namespace Synod

namespace Record

/-- A record with any version, length and checksum in its header. -/
def assemble (v : UInt8) (n c : UInt32) (payload : Bytes) : Bytes :=
  mark ++ [v] ++ Bytes.littleEndian 4 n.toNat ++ Bytes.littleEndian 4 c.toNat ++ payload

variable {payload : Bytes} {s : State}

theorem length_assemble (v : UInt8) (n c : UInt32) (payload : Bytes) :
    (assemble v n c payload).length = headerLength + payload.length := by
  simp only [assemble, mark, headerLength, List.length_append, List.length_cons, List.length_nil,
    Bytes.length_littleEndian]

/-- The checks that are left once a record is long enough and bears the mark. -/
theorem unwrap_assemble (v : UInt8) (n c : UInt32) (payload : Bytes) :
    unwrap (assemble v n c payload) =
      if v ≠ version then .error (.unsupportedVersion v)
      else if payload.length ≠ n.toNat then
        .error (.truncated (headerLength + n.toNat) (headerLength + payload.length))
      else if Checksum.of payload ≠ c then .error (.checksum c (Checksum.of payload))
      else .ok payload := by
  have hlong : ¬ headerLength + payload.length < headerLength := by omega
  have hmark : (assemble v n c payload).take 4 = mark := rfl
  have hversion : ((assemble v n c payload).drop 4).headD 0 = v := rfl
  have hlength : ((assemble v n c payload).drop 5).take 4 = Bytes.littleEndian 4 n.toNat := rfl
  have hchecksum : ((assemble v n c payload).drop 9).take 4 = Bytes.littleEndian 4 c.toNat := rfl
  have hpayload : (assemble v n c payload).drop headerLength = payload := rfl
  have hn : n.toNat < Bytes.bound 4 := n.toNat_lt
  have hc : c.toNat < Bytes.bound 4 := c.toNat_lt
  simp only [unwrap, hlong, hmark, hversion, hlength, hchecksum, hpayload, length_assemble,
    Bytes.ofLittleEndian_littleEndian hn, Bytes.ofLittleEndian_littleEndian hc,
    UInt32.ofNat_toNat, ne_eq, not_true_eq_false, if_false]

theorem wrap_eq_assemble (h : payload.length < Bytes.bound 4) :
    wrap payload
      = assemble version (UInt32.ofNat payload.length) (Checksum.of payload) payload := by
  rw [assemble, UInt32.toNat_ofNat_of_lt' h]
  rfl

theorem unwrap_wrap (h : payload.length < Bytes.bound 4) : unwrap (wrap payload) = .ok payload := by
  rw [wrap_eq_assemble h, unwrap_assemble, UInt32.toNat_ofNat_of_lt' h]
  simp

end Record

/-- A state whose payload is short enough for the length field of a record. -/
def State.Storable (s : State) : Prop := (Wire.encode s).length < Bytes.bound 4

namespace Record

theorem decode_encode (h : s.Storable) : decode (encode s) = .ok s := by
  have hlt : (Wire.encode s).length < UInt64.size := Nat.lt_trans h (by decide)
  have hd := Wire.decode_encode (LawfulWire.fits_of_length hlt) []
  rw [List.append_nil] at hd
  rw [decode, encode, unwrap_wrap h]
  change (Wire.decode (Wire.encode s)).mapError StorageError.decode = .ok s
  rw [hd]
  rfl

end Record
end Synod
