import Synod.Proofs.Codec

/-!
Every value has one binary form: a byte string is read as a value exactly if it begins with the
binary form of that value.
-/
namespace Synod

open LawfulWire

/-- A binary form that is read from nothing but its own bytes. -/
class CanonicalWire (α : Type) [Wire α] [LawfulWire α] : Prop where
  eq_of_read {a : α} {bs rest : Bytes} :
    Wire.read bs = .ok (a, rest) → Fits a ∧ bs = Wire.encode a ++ rest

namespace Reader

variable {α β : Type} {read : Reader α} {next : α → Reader β} {a b : α} {bs rest : Bytes}

theorem bind_eq_ok {b : β} (h : (read >>= next) bs = .ok (b, rest)) :
    ∃ a mid, read bs = .ok (a, mid) ∧ next a mid = .ok (b, rest) := by
  change Reader.bind read next bs = _ at h
  unfold Reader.bind at h
  split at h
  · rename_i a mid hr
    exact ⟨a, mid, hr, h⟩
  · simp at h

theorem pure_eq_ok (h : (Pure.pure a : Reader α) bs = .ok (b, rest)) : b = a ∧ bs = rest := by
  rw [pure_apply] at h
  obtain ⟨rfl, rfl⟩ := Prod.mk.inj (Except.ok.inj h)
  exact ⟨rfl, rfl⟩

theorem take_eq_ok {n : Nat} {e : WireError} {first : Bytes}
    (h : take n e bs = .ok (first, rest)) : bs = first ++ rest ∧ first.length = n := by
  unfold take at h
  split at h
  · rename_i found hs
    obtain rfl := Except.ok.inj h
    exact Bytes.split?_eq_some hs
  · simp at h

end Reader

namespace Wire

open CanonicalWire

variable {α β : Type}

instance : CanonicalWire UInt8 where
  eq_of_read {n bs rest} h := by
    cases bs with
    | nil => simp [read] at h
    | cons b bs =>
      obtain ⟨rfl, rfl⟩ := Prod.mk.inj (Except.ok.inj h)
      exact ⟨trivial, rfl⟩

/-- What is read in a field of fixed width is the number that the field spells. -/
theorem eq_of_take {width : Nat} {e : WireError} {bs first rest : Bytes}
    (h : Reader.take width e bs = .ok (first, rest)) :
    first.ofLittleEndian < Bytes.bound width ∧
      bs = Bytes.littleEndian width first.ofLittleEndian ++ rest := by
  obtain ⟨rfl, rfl⟩ := Reader.take_eq_ok h
  exact ⟨Bytes.ofLittleEndian_lt first, by rw [Bytes.littleEndian_ofLittleEndian]⟩

instance : CanonicalWire UInt32 where
  eq_of_read {n bs rest} h := by
    obtain ⟨first, mid, ht, hn⟩ := Reader.bind_eq_ok h
    obtain ⟨rfl, rfl⟩ := Reader.pure_eq_ok hn
    obtain ⟨hlt, hbs⟩ := eq_of_take ht
    exact ⟨trivial, by simp only [hbs, encode, UInt32.toNat_ofNat_of_lt' hlt]⟩

instance : CanonicalWire UInt64 where
  eq_of_read {n bs rest} h := by
    obtain ⟨first, mid, ht, hn⟩ := Reader.bind_eq_ok h
    obtain ⟨rfl, rfl⟩ := Reader.pure_eq_ok hn
    obtain ⟨hlt, hbs⟩ := eq_of_take ht
    exact ⟨trivial, by simp only [hbs, encode, UInt64.toNat_ofNat_of_lt' hlt]⟩

/-- A reader that begins with a value takes the binary form of one off the input. -/
theorem bind_eq_ok [Wire α] [LawfulWire α] [CanonicalWire α] {next : α → Reader β} {b : β}
    {bs rest : Bytes} (h : (read >>= next) bs = .ok (b, rest)) :
    ∃ a mid, Fits a ∧ bs = encode a ++ mid ∧ next a mid = .ok (b, rest) := by
  obtain ⟨a, mid, hr, hn⟩ := Reader.bind_eq_ok h
  obtain ⟨ha, hbs⟩ := eq_of_read hr
  exact ⟨a, mid, ha, hbs, hn⟩

theorem eq_of_readLength {n : Nat} {bs rest : Bytes} (h : readLength bs = .ok (n, rest)) :
    n < UInt64.size ∧ bs = encodeLength n ++ rest := by
  obtain ⟨m, mid, -, rfl, hm⟩ := bind_eq_ok h
  obtain ⟨rfl, rfl⟩ := Reader.pure_eq_ok hm
  exact ⟨m.toNat_lt, by rw [encodeLength, UInt64.ofNat_toNat]⟩

instance : CanonicalWire Bool where
  eq_of_read {b bs rest} h := by
    obtain ⟨n, mid, -, rfl, hn⟩ := bind_eq_ok h
    split at hn
    · subst n
      obtain ⟨rfl, rfl⟩ := Reader.pure_eq_ok hn
      exact ⟨trivial, rfl⟩
    split at hn
    · subst n
      obtain ⟨rfl, rfl⟩ := Reader.pure_eq_ok hn
      exact ⟨trivial, rfl⟩
    · simp [Reader.fail] at hn

instance [Wire α] [LawfulWire α] [CanonicalWire α] : CanonicalWire (Option α) where
  eq_of_read {o bs rest} h := by
    obtain ⟨n, mid, -, rfl, hn⟩ := bind_eq_ok h
    split at hn
    · subst n
      obtain ⟨rfl, rfl⟩ := Reader.pure_eq_ok hn
      exact ⟨by simp [Fits], rfl⟩
    split at hn
    · subst n
      obtain ⟨a, mid, ha, rfl, hr⟩ := bind_eq_ok hn
      obtain ⟨rfl, rfl⟩ := Reader.pure_eq_ok hr
      refine ⟨?_, rfl⟩
      rintro _ ⟨⟩
      exact ha
    · simp [Reader.fail] at hn

theorem eq_of_repeated [Wire α] [LawfulWire α] [CanonicalWire α] {n : Nat} {done as : List α}
    {bs rest : Bytes} (h : Reader.repeated read n done bs = .ok (as, rest)) :
    ∃ new : List α, as = done.reverse ++ new ∧ new.length = n ∧ (∀ a ∈ new, Fits a) ∧
      bs = new.flatMap encode ++ rest := by
  induction n generalizing done bs with
  | zero =>
    obtain ⟨rfl, rfl⟩ := Prod.mk.inj (Except.ok.inj h)
    exact ⟨[], by simp⟩
  | succ n ih =>
    unfold Reader.repeated at h
    split at h
    · rename_i a mid hr
      obtain ⟨ha, rfl⟩ := eq_of_read hr
      obtain ⟨new, rfl, rfl, hnew, rfl⟩ := ih h
      exact ⟨a :: new, by simp, rfl, by simpa using ⟨ha, hnew⟩, by simp⟩
    · simp at h

instance [Wire α] [LawfulWire α] [CanonicalWire α] : CanonicalWire (List α) where
  eq_of_read {as bs rest} h := by
    obtain ⟨n, mid, hn, hr⟩ := Reader.bind_eq_ok h
    obtain ⟨hlt, rfl⟩ := eq_of_readLength hn
    obtain ⟨new, rfl, rfl, hnew, rfl⟩ := eq_of_repeated hr
    exact ⟨⟨hlt, hnew⟩, by simp [encode]⟩

instance : CanonicalWire String where
  eq_of_read {text bs rest} h := by
    obtain ⟨n, mid, hn, hr⟩ := Reader.bind_eq_ok h
    obtain ⟨hlt, rfl⟩ := eq_of_readLength hn
    obtain ⟨first, mid, ht, hd⟩ := Reader.bind_eq_ok hr
    obtain ⟨rfl, rfl⟩ := Reader.take_eq_ok ht
    cases hf : Text.decode first with
    | error e => simp [hf, Reader.fail] at hd
    | ok found =>
      rw [hf] at hd
      obtain ⟨rfl, rfl⟩ := Reader.pure_eq_ok hd
      obtain rfl := Text.encode_of_decode hf
      exact ⟨hlt, by simp [encode]⟩

instance : CanonicalWire ProposerId where
  eq_of_read {p bs rest} h := by
    obtain ⟨n, mid, hn, hr⟩ := Reader.bind_eq_ok h
    obtain ⟨-, rfl⟩ := eq_of_readLength hn
    obtain ⟨first, mid, ht, hp⟩ := Reader.bind_eq_ok hr
    obtain ⟨rfl, rfl⟩ := Reader.take_eq_ok ht
    split at hp
    · rename_i hl
      obtain ⟨rfl, rfl⟩ := Reader.pure_eq_ok hp
      exact ⟨trivial, by simp [encode, ProposerId.bytes_ofBytes hl, hl]⟩
    · simp [Reader.fail] at hp

instance : CanonicalWire Rank where
  eq_of_read {r bs rest} h := by
    obtain ⟨s, _, -, rfl, hs⟩ := bind_eq_ok h
    obtain ⟨p, _, -, rfl, hp⟩ := bind_eq_ok hs
    obtain ⟨rfl, rfl⟩ := Reader.pure_eq_ok hp
    exact ⟨trivial, by rw [encode_rank, List.append_assoc]⟩

instance : CanonicalWire Layout where
  eq_of_read {l bs rest} h := by
    obtain ⟨e, _, -, rfl, he⟩ := bind_eq_ok h
    obtain ⟨servers, _, hfs, rfl, hs⟩ := bind_eq_ok he
    obtain ⟨sequencers, _, hfq, rfl, hq⟩ := bind_eq_ok hs
    obtain ⟨logs, _, hfl, rfl, hl⟩ := bind_eq_ok hq
    obtain ⟨rfl, rfl⟩ := Reader.pure_eq_ok hl
    exact ⟨⟨hfs, hfq, hfl⟩, by simp only [encode_layout, List.append_assoc]⟩

instance : CanonicalWire Accepted where
  eq_of_read {a bs rest} h := by
    obtain ⟨r, _, -, rfl, hr⟩ := bind_eq_ok h
    obtain ⟨l, _, hf, rfl, hl⟩ := bind_eq_ok hr
    obtain ⟨rfl, rfl⟩ := Reader.pure_eq_ok hl
    exact ⟨hf, by rw [encode_accepted, List.append_assoc]⟩

instance : CanonicalWire State where
  eq_of_read {s bs rest} h := by
    obtain ⟨b, _, -, rfl, hb⟩ := bind_eq_ok h
    obtain ⟨e, _, -, rfl, he⟩ := bind_eq_ok hb
    obtain ⟨l, _, hfl, rfl, hl⟩ := bind_eq_ok he
    obtain ⟨p, _, -, rfl, hp⟩ := bind_eq_ok hl
    obtain ⟨a, _, hfa, rfl, ha⟩ := bind_eq_ok hp
    obtain ⟨rfl, rfl⟩ := Reader.pure_eq_ok ha
    exact ⟨⟨hfl, hfa⟩, by simp only [encode_state, List.append_assoc]⟩

instance : CanonicalWire Request where
  eq_of_read {q bs rest} h := by
    obtain ⟨n, _, -, rfl, hn⟩ := bind_eq_ok h
    split at hn
    · subst n
      obtain ⟨l, _, hf, rfl, hl⟩ := bind_eq_ok hn
      obtain ⟨rfl, rfl⟩ := Reader.pure_eq_ok hl
      exact ⟨hf, by simp only [encode_request, tag, List.append_assoc]⟩
    split at hn
    · subst n
      obtain ⟨rfl, rfl⟩ := Reader.pure_eq_ok hn
      exact ⟨trivial, by simp only [encode_request, tag]⟩
    split at hn
    · subst n
      obtain ⟨e, _, -, rfl, he⟩ := bind_eq_ok hn
      obtain ⟨rfl, rfl⟩ := Reader.pure_eq_ok he
      exact ⟨trivial, by simp only [encode_request, tag, List.append_assoc]⟩
    split at hn
    · subst n
      obtain ⟨r, _, -, rfl, hr⟩ := bind_eq_ok hn
      obtain ⟨e, _, -, rfl, he⟩ := bind_eq_ok hr
      obtain ⟨rfl, rfl⟩ := Reader.pure_eq_ok he
      exact ⟨trivial, by simp only [encode_request, tag, List.append_assoc]⟩
    split at hn
    · subst n
      obtain ⟨r, _, -, rfl, hr⟩ := bind_eq_ok hn
      obtain ⟨l, _, hf, rfl, hl⟩ := bind_eq_ok hr
      obtain ⟨e, _, -, rfl, he⟩ := bind_eq_ok hl
      obtain ⟨rfl, rfl⟩ := Reader.pure_eq_ok he
      exact ⟨hf, by simp only [encode_request, tag, List.append_assoc]⟩
    split at hn
    · subst n
      obtain ⟨r, _, -, rfl, hr⟩ := bind_eq_ok hn
      obtain ⟨l, _, hf, rfl, hl⟩ := bind_eq_ok hr
      obtain ⟨e, _, -, rfl, he⟩ := bind_eq_ok hl
      obtain ⟨rfl, rfl⟩ := Reader.pure_eq_ok he
      exact ⟨hf, by simp only [encode_request, tag, List.append_assoc]⟩
    · simp [Reader.fail] at hn

instance : CanonicalWire Response where
  eq_of_read {a bs rest} h := by
    obtain ⟨n, _, -, rfl, hn⟩ := bind_eq_ok h
    split at hn
    · subst n
      obtain ⟨rfl, rfl⟩ := Reader.pure_eq_ok hn
      exact ⟨trivial, by simp only [encode_response, tag]⟩
    split at hn
    · subst n
      obtain ⟨rfl, rfl⟩ := Reader.pure_eq_ok hn
      exact ⟨trivial, by simp only [encode_response, tag]⟩
    split at hn
    · subst n
      obtain ⟨rfl, rfl⟩ := Reader.pure_eq_ok hn
      exact ⟨trivial, by simp only [encode_response, tag]⟩
    split at hn
    · subst n
      obtain ⟨l, _, hf, rfl, hl⟩ := bind_eq_ok hn
      obtain ⟨e, _, -, rfl, he⟩ := bind_eq_ok hl
      obtain ⟨rfl, rfl⟩ := Reader.pure_eq_ok he
      exact ⟨hf, by simp only [encode_response, tag, List.append_assoc]⟩
    split at hn
    · subst n
      obtain ⟨e, _, -, rfl, he⟩ := bind_eq_ok hn
      obtain ⟨rfl, rfl⟩ := Reader.pure_eq_ok he
      exact ⟨trivial, by simp only [encode_response, tag, List.append_assoc]⟩
    split at hn
    · subst n
      obtain ⟨r, _, -, rfl, hr⟩ := bind_eq_ok hn
      obtain ⟨l, _, hf, rfl, hl⟩ := bind_eq_ok hr
      obtain ⟨rfl, rfl⟩ := Reader.pure_eq_ok hl
      exact ⟨hf, by simp only [encode_response, tag, List.append_assoc]⟩
    split at hn
    · subst n
      obtain ⟨r, _, -, rfl, hr⟩ := bind_eq_ok hn
      obtain ⟨rfl, rfl⟩ := Reader.pure_eq_ok hr
      exact ⟨trivial, by simp only [encode_response, tag, List.append_assoc]⟩
    split at hn
    · subst n
      obtain ⟨p, _, -, rfl, hp⟩ := bind_eq_ok hn
      obtain ⟨r, _, -, rfl, hr⟩ := bind_eq_ok hp
      obtain ⟨rfl, rfl⟩ := Reader.pure_eq_ok hr
      exact ⟨trivial, by simp only [encode_response, tag, List.append_assoc]⟩
    · simp [Reader.fail] at hn

instance : CanonicalWire Reply where
  eq_of_read {a bs rest} h := by
    obtain ⟨n, _, -, rfl, hn⟩ := bind_eq_ok h
    split at hn
    · subst n
      obtain ⟨response, _, hf, rfl, hresponse⟩ := bind_eq_ok hn
      obtain ⟨rfl, rfl⟩ := Reader.pure_eq_ok hresponse
      exact ⟨hf, by simp only [encode_reply, tag, List.append_assoc]⟩
    split at hn
    · subst n
      obtain ⟨fault, _, hf, rfl, hfault⟩ := bind_eq_ok hn
      obtain ⟨rfl, rfl⟩ := Reader.pure_eq_ok hfault
      exact ⟨hf, by simp only [encode_reply, tag, List.append_assoc]⟩
    · simp [Reader.fail] at hn

section Exact

variable [Wire α] [LawfulWire α]

/-- What it means that values are read from their binary forms and from nothing else. The lengths in
a value have to fit their fields. -/
structure Exact (α : Type) [Wire α] [LawfulWire α] : Prop where
  decode_iff (a : α) (bs : Bytes) : decode bs = .ok a ↔ Fits a ∧ encode a <+: bs
  decode_self (a : α) : Fits a → decode (encode a) = .ok a
  /-- Bytes after a value are ignored. -/
  decode_append (a : α) (rest : Bytes) : Fits a → decode (encode a ++ rest) = .ok a
  /-- No binary form begins another. -/
  eq_of_prefix (a b : α) : Fits a → Fits b → encode a <+: encode b → a = b
  /-- A binary form that is cut short is refused. -/
  error_of_cut (a : α) (bs : Bytes) :
    Fits a → bs <+: encode a → bs ≠ encode a → ∃ e, decode (α := α) bs = .error e
  encode_inj (a b : α) : Fits a → Fits b → encode a = encode b → a = b

variable [CanonicalWire α] {a b : α} {bs : Bytes}

theorem decode_eq_ok_iff : decode bs = .ok a ↔ Fits a ∧ encode a <+: bs := by
  constructor
  · intro h
    unfold decode at h
    cases hr : (read : Reader α) bs with
    | error e => simp [hr, Except.map] at h
    | ok found =>
      obtain ⟨b, rest⟩ := found
      rw [hr] at h
      obtain rfl := Except.ok.inj h
      obtain ⟨hf, rfl⟩ := eq_of_read hr
      exact ⟨hf, List.prefix_append _ _⟩
  · rintro ⟨hf, rest, rfl⟩
    exact decode_encode hf rest

theorem eq_of_encode_prefix (ha : Fits a) (hb : Fits b) (h : encode a <+: encode b) : a = b := by
  have hda := decode_eq_ok_iff.mpr ⟨ha, h⟩
  have hdb := decode_eq_ok_iff.mpr ⟨hb, List.prefix_rfl⟩
  exact Except.ok.inj (hda.symm.trans hdb)

theorem decode_error_of_cut (ha : Fits a) (h : bs <+: encode a) (hne : bs ≠ encode a) :
    ∃ e, decode (α := α) bs = .error e := by
  cases hd : decode (α := α) bs with
  | error e => exact ⟨e, rfl⟩
  | ok b =>
    obtain ⟨hb, hpre⟩ := decode_eq_ok_iff.mp hd
    obtain rfl := eq_of_encode_prefix hb ha (hpre.trans h)
    exact absurd (h.eq_of_length (Nat.le_antisymm h.length_le hpre.length_le)) hne

theorem exact_of_canonical : Exact α where
  decode_iff _ _ := decode_eq_ok_iff
  decode_self _ ha := decode_eq_ok_iff.mpr ⟨ha, List.prefix_rfl⟩
  decode_append _ rest ha := decode_encode ha rest
  eq_of_prefix _ _ ha hb h := eq_of_encode_prefix ha hb h
  error_of_cut _ _ ha h hne := decode_error_of_cut ha h hne
  encode_inj _ _ ha hb h := eq_of_encode_prefix ha hb (h ▸ List.prefix_rfl)

end Exact

/-- The binary forms of what is sent and what is saved are exact. -/
theorem binary_forms_exact :
    Exact Request ∧ Exact Response ∧ Exact Reply ∧ Exact State ∧ Exact Rank ∧ Exact Layout :=
  ⟨exact_of_canonical, exact_of_canonical, exact_of_canonical, exact_of_canonical,
    exact_of_canonical, exact_of_canonical⟩

end Wire
end Synod
