import Synod.Proofs.Canonical
import Synod.Proofs.Record

/-!
What is read of a record: a state from an intact one, and from any other the fault that is found
first.
-/
namespace Synod.Record

/-- Whether a byte string is a record of a state, of which the payload may go on after the state. -/
def Intact (b : Bytes) (s : State) : Prop :=
  ∃ n payload, b = assemble version n (Checksum.of payload) payload ∧ payload.length = n.toNat ∧
    Wire.encode s <+: payload

/-- The fault of a record that is not intact. Each supposes that those before it are not found. -/
inductive Refused : Bytes → StorageError → Prop where
  | short {b : Bytes} (h : b.length < headerLength) : Refused b (.truncated headerLength b.length)
  | unmarked {b : Bytes} (hl : headerLength ≤ b.length) (h : ¬ mark <+: b) : Refused b .badMagic
  | version {v : UInt8} {n c : UInt32} {payload : Bytes} (h : v ≠ version) :
      Refused (assemble v n c payload) (.unsupportedVersion v)
  | length {n c : UInt32} {payload : Bytes} (h : payload.length ≠ n.toNat) :
      Refused (assemble version n c payload)
        (.truncated (headerLength + n.toNat) (headerLength + payload.length))
  | checksum {n c : UInt32} {payload : Bytes} (hl : payload.length = n.toNat)
      (h : Checksum.of payload ≠ c) :
      Refused (assemble version n c payload) (.checksum c (Checksum.of payload))
  | payload {n : UInt32} {payload : Bytes} {e : WireError} (hl : payload.length = n.toNat)
      (h : (Wire.decode payload : Except WireError State) = .error e) :
      Refused (assemble version n (Checksum.of payload) payload) (.decode e)

variable {b : Bytes} {s : State} {e : StorageError}

/-- Every byte string that is long enough and bears the mark has all fields of a header. -/
theorem assemble_of_mark (hl : headerLength ≤ b.length) (h : mark <+: b) :
    ∃ v n c payload, b = assemble v n c payload := by
  obtain ⟨rest, rfl⟩ := h
  rw [List.length_append] at hl
  change 13 ≤ 4 + rest.length at hl
  rcases rest with _ | ⟨v, rest⟩
  · simp at hl
  rw [List.length_cons] at hl
  have hn : (rest.take 4).length = 4 := by
    rw [List.length_take]
    omega
  have hc : ((rest.drop 4).take 4).length = 4 := by
    rw [List.length_take, List.length_drop]
    omega
  refine ⟨v, .ofNat (Bytes.ofLittleEndian (rest.take 4)),
    .ofNat (Bytes.ofLittleEndian ((rest.drop 4).take 4)), (rest.drop 4).drop 4, ?_⟩
  rw [assemble, Bytes.littleEndian_word hn, Bytes.littleEndian_word hc]
  simp only [List.append_assoc, List.take_append_drop, List.cons_append, List.nil_append]

theorem decode_of_intact (h : Intact b s) : decode b = .ok s := by
  obtain ⟨n, payload, rfl, hl, hp⟩ := h
  have hlt : (Wire.encode s).length < UInt64.size :=
    Nat.lt_of_le_of_lt hp.length_le (hl ▸ Nat.lt_trans n.toNat_lt (by decide))
  have hd := Wire.decode_eq_ok_iff.mpr ⟨LawfulWire.fits_of_length hlt, hp⟩
  rw [decode, unwrap_assemble, if_neg (not_not_intro rfl), if_neg (not_not_intro hl),
    if_neg (not_not_intro rfl)]
  dsimp only
  rw [hd]
  rfl

theorem decode_of_refused (h : Refused b e) : decode b = .error e := by
  cases h with
  | short h => rw [decode, unwrap, if_pos h]
  | unmarked hl h =>
    have hm : b.take 4 ≠ mark := fun ht => h (ht ▸ List.take_prefix 4 b)
    rw [decode, unwrap, if_neg (Nat.not_lt.mpr hl), if_pos hm]
  | version h => rw [decode, unwrap_assemble, if_pos h]
  | length h => rw [decode, unwrap_assemble, if_neg (not_not_intro rfl), if_pos h]
  | checksum hl h =>
    rw [decode, unwrap_assemble, if_neg (not_not_intro rfl), if_neg (not_not_intro hl), if_pos h]
  | payload hl h =>
    rw [decode, unwrap_assemble, if_neg (not_not_intro rfl), if_neg (not_not_intro hl),
      if_neg (not_not_intro rfl)]
    dsimp only
    rw [h]
    rfl

theorem intact_or_refused (b : Bytes) : (∃ s, Intact b s) ∨ ∃ e, Refused b e := by
  by_cases hshort : b.length < headerLength
  · exact Or.inr ⟨_, .short hshort⟩
  have hl := Nat.not_lt.mp hshort
  by_cases hmark : mark <+: b
  · obtain ⟨v, n, c, payload, rfl⟩ := assemble_of_mark hl hmark
    by_cases hv : v = version
    · subst hv
      by_cases hn : payload.length = n.toNat
      · by_cases hc : Checksum.of payload = c
        · subst hc
          cases hd : (Wire.decode payload : Except WireError State) with
          | error e => exact Or.inr ⟨_, .payload hn hd⟩
          | ok s => exact Or.inl ⟨s, n, payload, rfl, hn, (Wire.decode_eq_ok_iff.mp hd).2⟩
        · exact Or.inr ⟨_, .checksum hn hc⟩
      · exact Or.inr ⟨_, .length hn⟩
    · exact Or.inr ⟨_, .version hv⟩
  · exact Or.inr ⟨_, .unmarked hl hmark⟩

theorem intact_of_decode (h : decode b = .ok s) : Intact b s := by
  rcases intact_or_refused b with ⟨t, ht⟩ | ⟨e, he⟩
  · obtain rfl := Except.ok.inj ((decode_of_intact ht).symm.trans h)
    exact ht
  · rw [decode_of_refused he] at h
    cases h

theorem refused_of_decode (h : decode b = .error e) : Refused b e := by
  rcases intact_or_refused b with ⟨t, ht⟩ | ⟨e, he⟩
  · rw [decode_of_intact ht] at h
    cases h
  · obtain rfl := Except.error.inj ((decode_of_refused he).symm.trans h)
    exact he

/-- Exactly the intact records are read, each as the state that its payload begins with, and of any
other byte string the first fault is reported. -/
theorem decode_exact (b : Bytes) :
    (∀ s, decode b = .ok s ↔ Intact b s) ∧ ∀ e, decode b = .error e ↔ Refused b e :=
  ⟨fun _ => ⟨intact_of_decode, decode_of_intact⟩, fun _ => ⟨refused_of_decode, decode_of_refused⟩⟩

end Synod.Record
