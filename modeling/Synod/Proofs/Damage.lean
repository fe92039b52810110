import Synod.Proofs.Checksum
import Synod.Proofs.Intact

/-!
Damage to a record. What is cut short, prolonged, or changed in the header or in four bytes that
follow each other is not read as a state.
-/
namespace Synod

/-- Whether two byte strings of one length differ at most from one position up to another. -/
def SameOutside (first last : Nat) (a b : Bytes) : Prop :=
  a.length = b.length ∧ ∀ i, i < first ∨ last ≤ i → a[i]? = b[i]?

section SameOutside

variable {first last : Nat} {a b : Bytes}

theorem take_of_sameOutside (h : SameOutside first last a b) : a.take first = b.take first := by
  apply List.ext_getElem?
  intro i
  by_cases hi : i < first
  · rw [List.getElem?_take_of_lt hi, List.getElem?_take_of_lt hi]
    exact h.2 i (Or.inl hi)
  · have hi := Nat.not_lt.mp hi
    rw [List.getElem?_take_eq_none hi, List.getElem?_take_eq_none hi]

theorem drop_of_sameOutside (h : SameOutside first last a b) : a.drop last = b.drop last := by
  apply List.ext_getElem?
  intro i
  rw [List.getElem?_drop, List.getElem?_drop]
  exact h.2 (last + i) (Or.inr (Nat.le_add_right last i))

theorem sameOutside_drop {n : Nat} (h : SameOutside (n + first) (n + first + last) a b) :
    SameOutside first (first + last) (a.drop n) (b.drop n) := by
  refine ⟨by rw [List.length_drop, List.length_drop, h.1], fun i hi => ?_⟩
  rw [List.getElem?_drop, List.getElem?_drop]
  refine h.2 (n + i) ?_
  omega

theorem sameOutside_mono {first' last' : Nat} (hf : first' ≤ first) (hl : last ≤ last')
    (h : SameOutside first last a b) : SameOutside first' last' a b := by
  refine ⟨h.1, fun i hi => h.2 i ?_⟩
  omega

theorem sameOutside_set (b : Bytes) (i : Nat) (x : UInt8) :
    SameOutside i (i + 1) (b.set i x) b := by
  refine ⟨List.length_set, fun j hj => List.getElem?_set_ne ?_⟩
  omega

end SameOutside

namespace Record

variable {p q b c : Bytes} {s : State} {k : Nat}

/-- What is read at all is a whole record of some payload. -/
theorem wrap_of_decode {s : State} (h : decode b = .ok s) :
    ∃ p, b = wrap p ∧ p.length < Bytes.bound 4 := by
  obtain ⟨n, p, rfl, hl, _⟩ := intact_of_decode h
  have hp : p.length < Bytes.bound 4 := hl ▸ n.toNat_lt
  refine ⟨p, ?_, hp⟩
  rw [wrap_eq_assemble hp, hl, UInt32.ofNat_toNat]

theorem error_of_not_wrap (h : ∀ p, p.length < Bytes.bound 4 → b ≠ wrap p) :
    ∃ e, decode b = .error e := by
  cases hd : decode b with
  | error e => exact ⟨e, rfl⟩
  | ok s =>
    obtain ⟨p, hb, hp⟩ := wrap_of_decode hd
    exact absurd hb (h p hp)

/-- A header tells the length of the payload and its checksum. -/
theorem header_inj (hp : p.length < Bytes.bound 4) (hq : q.length < Bytes.bound 4)
    (h : header p = header q) : p.length = q.length ∧ Checksum.of p = Checksum.of q := by
  obtain ⟨hfront, hchecksum⟩ := List.append_inj' h (by simp)
  have hlength := List.append_cancel_left hfront
  have hcp : (Checksum.of p).toNat < Bytes.bound 4 := (Checksum.of p).toNat_lt
  have hcq : (Checksum.of q).toNat < Bytes.bound 4 := (Checksum.of q).toNat_lt
  refine ⟨Bytes.littleEndian_inj hp hq hlength, ?_⟩
  exact UInt32.toNat_inj.mp (Bytes.littleEndian_inj hcp hcq hchecksum)

/-- No whole record begins another. -/
theorem eq_of_wrap_prefix (hp : p.length < Bytes.bound 4) (hq : q.length < Bytes.bound 4)
    (h : wrap p <+: wrap q) : p = q := by
  obtain ⟨rest, hr⟩ := h
  have hheader : header p = header q := congrArg (List.take headerLength) hr
  have hpayload : p ++ rest = q := congrArg (List.drop headerLength) hr
  have hl := (header_inj hp hq hheader).1
  exact (List.prefix_append p rest).eq_of_length (hpayload ▸ hl) |>.trans hpayload

/-- Payloads of one checksum that differ at most in four bytes in a row are the same. -/
theorem eq_of_sameOutside {first : Nat} (hc : Checksum.of p = Checksum.of q)
    (h : SameOutside first (first + 4) p q) : p = q := by
  have hsplit : ∀ l : Bytes,
      l.take first ++ (l.drop first).take 4 ++ l.drop (first + 4) = l := by
    intro l
    rw [List.append_assoc, ← List.drop_drop, List.take_append_drop, List.take_append_drop]
  have hfront := take_of_sameOutside h
  have hrest := drop_of_sameOutside h
  rw [← hsplit p, ← hsplit q, hfront, hrest] at hc ⊢
  have hwindow : ((q.drop first).take 4).length ≤ 4 := List.length_take_le 4 _
  have hl : ((p.drop first).take 4).length = ((q.drop first).take 4).length := by
    rw [List.length_take, List.length_take, List.length_drop, List.length_drop, h.1]
  rw [Checksum.window_inj hwindow hl hc]

theorem error_of_header (h : SameOutside 0 headerLength b (encode s)) (hne : b ≠ encode s) :
    ∃ e, decode b = .error e := by
  refine error_of_not_wrap fun p hp hb => hne ?_
  subst hb
  have hpayload : p = Wire.encode s := drop_of_sameOutside h
  rw [encode, hpayload]

section Damage

variable (hs : s.Storable)
include hs

theorem error_of_cut (h : b <+: encode s) (hne : b ≠ encode s) : ∃ e, decode b = .error e := by
  refine error_of_not_wrap fun p hp hb => hne ?_
  subst hb
  rw [encode, eq_of_wrap_prefix hp hs h]

theorem error_of_more (hne : c ≠ []) : ∃ e, decode (encode s ++ c) = .error e := by
  refine error_of_not_wrap fun p hp hb => hne ?_
  obtain rfl := eq_of_wrap_prefix hs hp (hb ▸ List.prefix_append _ _)
  exact List.append_right_eq_self.mp hb

/-- The header vouches for the checksum, and the checksum for the payload. -/
theorem error_of_window (hk : headerLength ≤ k) (h : SameOutside k (k + 4) b (encode s))
    (hne : b ≠ encode s) : ∃ e, decode b = .error e := by
  refine error_of_not_wrap fun p hp hb => hne ?_
  subst hb
  obtain ⟨first, rfl⟩ := Nat.exists_eq_add_of_le hk
  have hheader : header p = header (Wire.encode s) := by
    have htake := congrArg (List.take headerLength) (take_of_sameOutside h)
    rw [List.take_take, List.take_take, Nat.min_eq_left hk] at htake
    exact htake
  have hpayload : SameOutside first (first + 4) p (Wire.encode s) :=
    sameOutside_drop (a := wrap p) (b := wrap (Wire.encode s)) h
  rw [encode, eq_of_sameOutside (header_inj hp hs hheader).2 hpayload]

theorem error_of_set {i : Nat} {x : UInt8} (hi : i < (encode s).length)
    (hx : (encode s)[i]? ≠ some x) : ∃ e, decode ((encode s).set i x) = .error e := by
  have hne : (encode s).set i x ≠ encode s := by
    intro h
    rw [← h, List.getElem?_set_self hi] at hx
    exact hx rfl
  have h := sameOutside_set (encode s) i x
  by_cases hk : i < headerLength
  · exact error_of_header (sameOutside_mono (Nat.zero_le i) hk h) hne
  · exact error_of_window hs (Nat.not_lt.mp hk) (sameOutside_mono (Nat.le_refl i) (by omega) h) hne

end Damage

/-- Damage to the record of a state is noticed: that it is cut short, that anything follows it, and
that it is changed in the header, in four bytes of the payload that follow each other, or in a
single byte. -/
theorem damage_noticed (hs : s.Storable) :
    (∀ b, b <+: encode s → b ≠ encode s → ∃ e, decode b = .error e) ∧
    (∀ more, more ≠ [] → ∃ e, decode (encode s ++ more) = .error e) ∧
    (∀ b, SameOutside 0 headerLength b (encode s) → b ≠ encode s → ∃ e, decode b = .error e) ∧
    (∀ k b, headerLength ≤ k → SameOutside k (k + 4) b (encode s) → b ≠ encode s →
      ∃ e, decode b = .error e) ∧
    ∀ i x, i < (encode s).length → (encode s)[i]? ≠ some x →
      ∃ e, decode ((encode s).set i x) = .error e :=
  ⟨fun _ => error_of_cut hs, fun _ => error_of_more hs, fun _ => error_of_header,
    fun _ _ => error_of_window hs, fun _ _ => error_of_set hs⟩

/-- The record of the initial state, with an epoch of one in place of zero. -/
theorem damage_noticed_initial : State.Storable .initial ∧
    ∃ e, decode ((encode .initial).set 14 1) = .error e := by
  have hs : State.Storable .initial := by
    unfold State.Storable
    decide
  exact ⟨hs, (damage_noticed hs).2.2.2.2 14 1 (by decide) (by decide)⟩

end Record
end Synod
