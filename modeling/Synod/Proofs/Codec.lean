import Synod.Proofs.Utf8
import Synod.Wire.Message

/-!
Every value is read back from its binary form. Lists and texts have to be short enough for the field
that holds their length.
-/
namespace Synod

/-- A binary form that is read back, whatever follows it. -/
class LawfulWire (α : Type) [Wire α] where
  /-- Whether every length in a value fits its field. -/
  Fits : α → Prop
  length_pos (a : α) : 0 < (Wire.encode a).length
  fits_of_length {a : α} : (Wire.encode a).length < UInt64.size → Fits a
  read_encode {a : α} (rest : Bytes) : Fits a → Wire.read (Wire.encode a ++ rest) = .ok (a, rest)

namespace Reader

variable {α β : Type} {read : Reader α} {next : α → Reader β} {a : α} {bs rest : Bytes}

@[simp] theorem pure_apply (a : α) (bs : Bytes) : (Pure.pure a : Reader α) bs = .ok (a, bs) := rfl

theorem bind_apply (h : read bs = .ok (a, rest)) : (read >>= next) bs = next a rest := by
  change Reader.bind read next bs = next a rest
  simp [Reader.bind, h]

theorem take_append (bs rest : Bytes) (e : WireError) :
    take bs.length e (bs ++ rest) = .ok (bs, rest) := by
  simp [take, Bytes.split?_append]

end Reader

namespace Wire

open LawfulWire

variable {α : Type}

theorem take_littleEndian (width n : Nat) (rest : Bytes) (e : WireError) :
    Reader.take width e (Bytes.littleEndian width n ++ rest)
      = .ok (Bytes.littleEndian width n, rest) := by
  have h := Reader.take_append (Bytes.littleEndian width n) rest e
  rwa [Bytes.length_littleEndian] at h

theorem read_word64 (n : UInt64) (rest : Bytes) : read (encode n ++ rest) = .ok (n, rest) := by
  refine (Reader.bind_apply (take_littleEndian 8 n.toNat rest .endOfInput)).trans ?_
  have hn : n.toNat < Bytes.bound 8 := n.toNat_lt
  simp [Bytes.ofLittleEndian_littleEndian hn]

theorem readLength_encodeLength {n : Nat} (h : n < UInt64.size) (rest : Bytes) :
    readLength (encodeLength n ++ rest) = .ok (n, rest) := by
  refine (Reader.bind_apply (read_word64 (UInt64.ofNat n) rest)).trans ?_
  simp [UInt64.toNat_ofNat_of_lt' h]

instance : LawfulWire UInt8 where
  Fits _ := True
  length_pos _ := by simp [encode]
  fits_of_length _ := trivial
  read_encode _ _ := rfl

instance : LawfulWire UInt32 where
  Fits _ := True
  length_pos _ := by simp [encode]
  fits_of_length _ := trivial
  read_encode {n} rest _ := by
    refine (Reader.bind_apply (take_littleEndian 4 n.toNat rest .endOfInput)).trans ?_
    have hn : n.toNat < Bytes.bound 4 := n.toNat_lt
    simp [Bytes.ofLittleEndian_littleEndian hn]

instance : LawfulWire UInt64 where
  Fits _ := True
  length_pos _ := by simp [encode]
  fits_of_length _ := trivial
  read_encode rest _ := read_word64 _ rest

instance : LawfulWire Bool where
  Fits _ := True
  length_pos _ := by simp [encode]
  fits_of_length _ := trivial
  read_encode {b} rest _ := by
    cases b with
    | false => rfl
    | true => rfl

instance [Wire α] [LawfulWire α] : LawfulWire (Option α) where
  Fits o := ∀ a ∈ o, Fits a
  length_pos o := by cases o <;> simp [encode]
  fits_of_length {o} h a ha := by
    obtain rfl := ha
    simp only [encode, List.length_cons] at h
    exact fits_of_length (by omega)
  read_encode {o} rest h := by
    cases o with
    | none => rfl
    | some a =>
      have ht : (read : Reader UInt8) (encode (some a) ++ rest) = .ok (1, encode a ++ rest) := rfl
      refine (Reader.bind_apply ht).trans ?_
      simp [Reader.bind_apply (read_encode rest (h a rfl))]

section List

variable [Wire α] [LawfulWire α] {as : List α}

theorem repeated_flatMap (h : ∀ a ∈ as, Fits a) (done : List α) (rest : Bytes) :
    Reader.repeated read as.length done (as.flatMap encode ++ rest)
      = .ok (done.reverse ++ as, rest) := by
  induction as generalizing done with
  | nil => simp [Reader.repeated]
  | cons a as ih =>
    have ha := read_encode (as.flatMap encode ++ rest) (h a List.mem_cons_self)
    simp only [List.length_cons, List.flatMap_cons, List.append_assoc, Reader.repeated, ha]
    rw [ih fun b hb => h b (List.mem_cons_of_mem a hb)]
    simp

theorem length_le_flatMap (as : List α) : as.length ≤ (as.flatMap encode).length := by
  induction as with
  | nil => simp
  | cons a as ih =>
    have ha := length_pos a
    simp only [List.length_cons, List.flatMap_cons, List.length_append]
    omega

omit [LawfulWire α] in
theorem length_le_of_mem {a : α} (ha : a ∈ as) :
    (encode a).length ≤ (as.flatMap encode).length := by
  obtain ⟨before, after, rfl⟩ := List.append_of_mem ha
  simp only [List.flatMap_append, List.flatMap_cons, List.length_append]
  omega

end List

theorem length_encodeLength (n : Nat) : (encodeLength n).length = 8 := by
  simp [encodeLength, encode]

theorem length_pos_of_encodeLength (n : Nat) (bs : Bytes) : 0 < (encodeLength n ++ bs).length := by
  rw [List.length_append, length_encodeLength]
  omega

instance [Wire α] [LawfulWire α] : LawfulWire (List α) where
  Fits as := as.length < UInt64.size ∧ ∀ a ∈ as, Fits a
  length_pos as := length_pos_of_encodeLength _ _
  fits_of_length {as} h := by
    simp only [encode, List.length_append] at h
    have hn := length_le_flatMap as
    refine ⟨by omega, fun a ha => fits_of_length ?_⟩
    have := length_le_of_mem ha
    omega
  read_encode {as} rest h := by
    simp only [encode, List.append_assoc]
    refine (Reader.bind_apply (readLength_encodeLength h.1 _)).trans ?_
    simp [repeated_flatMap h.2]

instance : LawfulWire String where
  Fits text := (Text.encode text).length < UInt64.size
  length_pos text := length_pos_of_encodeLength _ _
  fits_of_length {text} h := by
    simp only [encode, List.length_append] at h
    omega
  read_encode {text} rest h := by
    simp only [encode, List.append_assoc]
    refine (Reader.bind_apply (readLength_encodeLength h _)).trans ?_
    refine (Reader.bind_apply (Reader.take_append (Text.encode text) rest _)).trans ?_
    simp [Text.decode_encode]

instance : LawfulWire ProposerId where
  Fits _ := True
  length_pos _ := by simp [encode]
  fits_of_length _ := trivial
  read_encode {p} rest _ := by
    simp only [encode, List.append_assoc]
    refine (Reader.bind_apply (readLength_encodeLength (by decide) _)).trans ?_
    have h := Reader.take_append p.bytes rest .shortContents
    rw [ProposerId.length_bytes] at h
    refine (Reader.bind_apply h).trans ?_
    simp [ProposerId.ofBytes_bytes]

theorem bind_encode {β : Type} [Wire α] [LawfulWire α] {next : α → Reader β} {a : α} {rest : Bytes}
    (h : Fits a) : (read >>= next) (encode a ++ rest) = next a rest :=
  Reader.bind_apply (read_encode rest h)

theorem length_pos_append [Wire α] [LawfulWire α] (a : α) (bs : Bytes) :
    0 < (encode a ++ bs).length := by
  have := length_pos a
  rw [List.length_append]
  omega

theorem encode_rank (r : Rank) : encode r = encode r.sequence ++ encode r.proposer := rfl

theorem encode_layout (l : Layout) :
    encode l = encode l.epoch ++ (encode l.layoutServers ++ (encode l.sequencers
      ++ encode l.logServers)) := by
  simp only [encode, List.append_assoc]

theorem encode_accepted (a : Accepted) : encode a = encode a.rank ++ encode a.layout := rfl

theorem encode_state (s : State) :
    encode s = encode s.bootstrapped ++ (encode s.epoch ++ (encode s.layout
      ++ (encode s.promised ++ encode s.accepted))) := by
  simp only [encode, List.append_assoc]

instance : LawfulWire Rank where
  Fits _ := True
  length_pos r := length_pos_append r.sequence _
  fits_of_length _ := trivial
  read_encode {r} rest _ := by
    rw [encode_rank, List.append_assoc]
    refine (bind_encode (a := r.sequence) trivial).trans ?_
    exact bind_encode (a := r.proposer) trivial

/-- Ranks are of fixed size. -/
theorem fits_rank (o : Option Rank) : Fits o := fun _ _ => trivial

instance : LawfulWire Layout where
  Fits l := Fits l.layoutServers ∧ Fits l.sequencers ∧ Fits l.logServers
  length_pos l := by
    rw [encode_layout]
    exact length_pos_append l.epoch _
  fits_of_length {l} h := by
    rw [encode_layout] at h
    simp only [List.length_append] at h
    exact ⟨fits_of_length (by omega), fits_of_length (by omega), fits_of_length (by omega)⟩
  read_encode {l} rest h := by
    obtain ⟨hl, hs, hg⟩ := h
    rw [encode_layout]
    simp only [List.append_assoc]
    refine (bind_encode (a := l.epoch) trivial).trans ?_
    refine (bind_encode hl).trans ?_
    refine (bind_encode hs).trans ?_
    exact bind_encode hg

instance : LawfulWire Accepted where
  Fits a := Fits a.layout
  length_pos a := length_pos_append a.rank _
  fits_of_length {a} h := by
    rw [encode_accepted, List.length_append] at h
    exact fits_of_length (a := a.layout) (by omega)
  read_encode {a} rest h := by
    rw [encode_accepted, List.append_assoc]
    refine (bind_encode (a := a.rank) trivial).trans ?_
    exact bind_encode h

instance : LawfulWire State where
  Fits s := Fits s.layout ∧ Fits s.accepted
  length_pos s := length_pos_append s.bootstrapped _
  fits_of_length {s} h := by
    rw [encode_state] at h
    simp only [List.length_append] at h
    exact ⟨fits_of_length (by omega), fits_of_length (by omega)⟩
  read_encode {s} rest h := by
    obtain ⟨hl, ha⟩ := h
    rw [encode_state]
    simp only [List.append_assoc]
    refine (bind_encode (a := s.bootstrapped) trivial).trans ?_
    refine (bind_encode (a := s.epoch) trivial).trans ?_
    refine (bind_encode hl).trans ?_
    refine (bind_encode (fits_rank s.promised)).trans ?_
    exact bind_encode ha

theorem length_tag (n : UInt32) : (tag n).length = 4 := by simp [tag, encode]

theorem bind_tag {β : Type} {next : UInt32 → Reader β} (n : UInt32) (rest : Bytes) :
    (read >>= next) (tag n ++ rest) = next n rest :=
  bind_encode (a := n) trivial

theorem encode_request (q : Request) :
    encode q = match q with
      | .bootstrap l => tag 0 ++ encode l
      | .getLayout => tag 1
      | .setEpoch e => tag 2 ++ encode e
      | .prepare r e => tag 3 ++ (encode r ++ encode e)
      | .propose r l e => tag 4 ++ (encode r ++ (encode l ++ encode e))
      | .committed r l e => tag 5 ++ (encode r ++ (encode l ++ encode e)) := by
  cases q <;> simp only [encode, List.append_assoc]

instance : LawfulWire Request where
  Fits
    | .bootstrap l | .propose _ l _ | .committed _ l _ => Fits l
    | .getLayout | .setEpoch _ | .prepare _ _ => True
  length_pos q := by
    rw [encode_request]
    cases q <;> simp only [List.length_append, length_tag] <;> omega
  fits_of_length {q} h := by
    rw [encode_request] at h
    cases q <;> simp only [List.length_append] at h
    case bootstrap | propose | committed => exact fits_of_length (by omega)
    all_goals trivial
  read_encode {q} rest h := by
    rw [encode_request]
    cases q <;> simp only [List.append_assoc]
    case bootstrap l =>
      refine (bind_tag 0 _).trans ?_
      exact bind_encode h
    case getLayout => exact bind_tag 1 _
    case setEpoch e =>
      refine (bind_tag 2 _).trans ?_
      exact bind_encode (a := e) trivial
    case prepare r e =>
      refine (bind_tag 3 _).trans ?_
      refine (bind_encode (a := r) trivial).trans ?_
      exact bind_encode (a := e) trivial
    case propose r l e =>
      refine (bind_tag 4 _).trans ?_
      refine (bind_encode (a := r) trivial).trans ?_
      refine (bind_encode h).trans ?_
      exact bind_encode (a := e) trivial
    case committed r l e =>
      refine (bind_tag 5 _).trans ?_
      refine (bind_encode (a := r) trivial).trans ?_
      refine (bind_encode h).trans ?_
      exact bind_encode (a := e) trivial

theorem encode_response (a : Response) :
    encode a = match a with
      | .ack => tag 0
      | .alreadyBootstrapped => tag 1
      | .noBootstrap => tag 2
      | .layout l e => tag 3 ++ (encode l ++ encode e)
      | .wrongEpoch e => tag 4 ++ encode e
      | .prepareAck r l => tag 5 ++ (encode r ++ encode l)
      | .prepareReject r => tag 6 ++ encode r
      | .proposeReject p r => tag 7 ++ (encode p ++ encode r) := by
  cases a <;> simp only [encode, List.append_assoc]

instance : LawfulWire Response where
  Fits
    | .layout l _ => Fits l
    | .prepareAck _ l => Fits l
    | .ack | .alreadyBootstrapped | .noBootstrap | .wrongEpoch _ | .prepareReject _
    | .proposeReject _ _ => True
  length_pos a := by
    rw [encode_response]
    cases a <;> simp only [List.length_append, length_tag] <;> omega
  fits_of_length {a} h := by
    rw [encode_response] at h
    cases a <;> simp only [List.length_append] at h
    case layout | prepareAck => exact fits_of_length (by omega)
    all_goals trivial
  read_encode {a} rest h := by
    rw [encode_response]
    cases a <;> simp only [List.append_assoc]
    case ack => exact bind_tag 0 _
    case alreadyBootstrapped => exact bind_tag 1 _
    case noBootstrap => exact bind_tag 2 _
    case layout l e =>
      refine (bind_tag 3 _).trans ?_
      refine (bind_encode h).trans ?_
      exact bind_encode (a := e) trivial
    case wrongEpoch e =>
      refine (bind_tag 4 _).trans ?_
      exact bind_encode (a := e) trivial
    case prepareAck r l =>
      refine (bind_tag 5 _).trans ?_
      refine (bind_encode (fits_rank r)).trans ?_
      exact bind_encode h
    case prepareReject r =>
      refine (bind_tag 6 _).trans ?_
      exact bind_encode (fits_rank r)
    case proposeReject p r =>
      refine (bind_tag 7 _).trans ?_
      refine (bind_encode (fits_rank p)).trans ?_
      exact bind_encode (fits_rank r)

theorem encode_reply (a : Reply) :
    encode a = match a with
      | .ok response => tag 0 ++ encode response
      | .error fault => tag 1 ++ encode fault := by
  cases a <;> rfl

instance : LawfulWire Reply where
  Fits
    | .ok response => Fits response
    | .error fault => Fits fault
  length_pos a := by
    rw [encode_reply]
    cases a <;> simp only [List.length_append, length_tag] <;> omega
  fits_of_length {a} h := by
    rw [encode_reply] at h
    cases a <;> simp only [List.length_append] at h <;> exact fits_of_length (by omega)
  read_encode {a} rest h := by
    rw [encode_reply]
    cases a <;> simp only [List.append_assoc]
    case ok response =>
      refine (bind_tag 0 _).trans ?_
      exact bind_encode h
    case error fault =>
      refine (bind_tag 1 _).trans ?_
      exact bind_encode h

/-- Bytes after a value are ignored. -/
theorem decode_encode [Wire α] [LawfulWire α] {a : α} (h : Fits a) (rest : Bytes) :
    decode (encode a ++ rest) = .ok a := by
  rw [decode, read_encode rest h]
  rfl

end Wire
end Synod
