import Synod.Proofs.Json.Skipping
import Synod.Proofs.Utf8

/-!
Strings of JSON. Every way to write a text is read as that text, and a string that is read is passed
over up to the same place.
-/
namespace Synod.Json

variable {b b₁ b₂ b₃ b₄ d₁ d₂ d₃ d₄ : UInt8} {bs content done rest : Bytes} {c : Char} {n m : Nat}

section Reading

theorem encodeChar_ascii (h : c.toNat < 0x80) : String.utf8EncodeChar c = [code c] := by
  have hv : c.val.toNat ≤ 127 := Nat.le_of_lt_succ h
  rw [String.utf8EncodeChar, if_pos hv]
  rfl

/-- A character that is not ASCII has no ASCII byte in it. -/
theorem high_of_not_ascii (h : 0x80 ≤ c.toNat) :
    ∀ b ∈ String.utf8EncodeChar c, 0x80 ≤ b.toNat := by
  have hv : ¬ c.val.toNat ≤ 127 := Nat.not_le.mpr h
  have high (n k : Nat) (hk : 0x80 ≤ k) (hn : n + k < 256) :
      0x80 ≤ (UInt8.ofNat (n + k)).toNat := by
    rw [UInt8.toNat_ofNat']
    omega
  rw [String.utf8EncodeChar, if_neg hv]
  intro b hb
  split at hb
  · simp only [List.mem_cons, List.not_mem_nil, or_false] at hb
    rcases hb with rfl | rfl <;> exact high _ _ (by decide) (by omega)
  split at hb
  · simp only [List.mem_cons, List.not_mem_nil, or_false] at hb
    rcases hb with rfl | rfl | rfl <;> exact high _ _ (by decide) (by omega)
  · simp only [List.mem_cons, List.not_mem_nil, or_false] at hb
    rcases hb with rfl | rfl | rfl | rfl <;> exact high _ _ (by decide) (by omega)

theorem toNat_code (h : c.toNat < 0x80) : (code c).toNat = c.toNat := by
  rw [code, UInt8.toNat_ofNat']
  omega

theorem textBytes_quote (done rest : Bytes) :
    textBytes done (code '"' :: rest) = .ok (done.reverse, rest) := by
  rw [textBytes.eq_def]
  rfl

/-- A byte that is neither a control character nor special stands for itself. -/
theorem textBytes_plain (h : 0x20 ≤ b.toNat) (hq : b ≠ code '"') (hb : b ≠ code '\\')
    (done rest : Bytes) : textBytes done (b :: rest) = textBytes (b :: done) rest := by
  have hs : ¬ b < 0x20 := by
    rw [UInt8.lt_iff_toNat_lt]
    simp only [UInt8.reduceToNat]
    omega
  rw [textBytes.eq_def]
  simp only [hq, hb, hs, if_false]

theorem textBytes_high (h : ∀ b ∈ bs, 0x80 ≤ b.toNat) (done rest : Bytes) :
    textBytes done (bs ++ rest) = textBytes (bs.reverse ++ done) rest := by
  induction bs generalizing done with
  | nil => rfl
  | cons b bs ih =>
    have hb := h b List.mem_cons_self
    have hne (c : Char) (hc : (code c).toNat < 0x80) : b ≠ code c := by
      rintro rfl
      omega
    rw [List.cons_append, textBytes_plain (by omega) (hne _ (by decide)) (hne _ (by decide)),
      ih fun d hd => h d (List.mem_cons_of_mem b hd)]
    simp

theorem textBytes_char (h : 0x20 ≤ c.toNat) (hq : c ≠ '"') (hb : c ≠ '\\') (done rest : Bytes) :
    textBytes done (String.utf8EncodeChar c ++ rest) = textBytes (pushChar done c) rest := by
  by_cases hc : c.toNat < 0x80
  · have hne (d : Char) (hd : d.toNat < 0x80) (hcd : c ≠ d) : code c ≠ code d := by
      intro he
      have hn := congrArg UInt8.toNat he
      rw [toNat_code hc, toNat_code hd] at hn
      exact hcd (Char.toNat_inj.mp hn)
    rw [pushChar, encodeChar_ascii hc]
    apply textBytes_plain
    · rwa [toNat_code hc]
    · exact hne _ (by decide) hq
    · exact hne _ (by decide) hb
  · exact textBytes_high (high_of_not_ascii (Nat.not_lt.mp hc)) done rest

theorem textBytes_short {e : Char} (h : (e, c) ∈ shortEscapes) (done rest : Bytes) :
    textBytes done (code '\\' :: code e :: rest) = textBytes (pushChar done c) rest := by
  have hall : ∀ p ∈ shortEscapes,
      simpleEscape? (code p.1) = some (code p.2) ∧ p.2.toNat < 0x80 := by decide
  obtain ⟨hs, hc⟩ := hall (e, c) h
  have hne : code '\\' ≠ code '"' := by decide
  rw [textBytes.eq_def]
  simp only [hs, hne, if_true, if_false, pushChar, encodeChar_ascii hc, List.reverse_singleton,
    List.singleton_append]

theorem simpleEscape?_u : simpleEscape? (code 'u') = none := by decide

theorem textBytes_hex (h : fourDigits b₁ b₂ b₃ b₄ = .ok n) (ht : isTrailing n = false)
    (hl : isLeading n = false) (done rest : Bytes) :
    textBytes done (code '\\' :: code 'u' :: b₁ :: b₂ :: b₃ :: b₄ :: rest)
      = textBytes (pushChar done (Char.ofNat n)) rest := by
  have hne : code '\\' ≠ code '"' := by decide
  rw [textBytes.eq_def]
  simp only [simpleEscape?_u, hne, h, ht, hl, if_true, if_false, ne_eq, not_true_eq_false,
    Bool.false_eq_true]

theorem textBytes_pair (h : fourDigits b₁ b₂ b₃ b₄ = .ok n) (ht : isTrailing n = false)
    (hl : isLeading n = true) (hd : fourDigits d₁ d₂ d₃ d₄ = .ok m) (hm : isTrailing m = true)
    (done rest : Bytes) :
    textBytes done (code '\\' :: code 'u' :: b₁ :: b₂ :: b₃ :: b₄ ::
        code '\\' :: code 'u' :: d₁ :: d₂ :: d₃ :: d₄ :: rest)
      = textBytes (pushChar done (paired n m)) rest := by
  have hne : code '\\' ≠ code '"' := by decide
  rw [textBytes.eq_def]
  simp only [simpleEscape?_u, hne, h, ht, hl, hd, hm, if_true, if_false, ne_eq, not_true_eq_false,
    Bool.false_eq_true]

theorem textBytes_spelled (h : Spelled c bs) (done rest : Bytes) :
    textBytes done (bs ++ rest) = textBytes (pushChar done c) rest := by
  have hv : c.toNat < 0xD800 ∨ 0xDFFF < c.toNat ∧ c.toNat < 0x110000 := c.valid
  cases h with
  | plain h hq hb => exact textBytes_char h hq hb done rest
  | short h => exact textBytes_short h done rest
  | hex h =>
    obtain ⟨b₁, b₂, b₃, b₄, rfl, hn⟩ := fourDigits_of_hex h
    have ht : isTrailing c.toNat = false := by
      simp only [isTrailing, Bool.and_eq_false_iff, decide_eq_false_iff_not]
      omega
    have hl : isLeading c.toNat = false := by
      simp only [isLeading, Bool.and_eq_false_iff, decide_eq_false_iff_not]
      omega
    have ht := textBytes_hex hn ht hl done rest
    rwa [Char.ofNat_toNat] at ht
  | pair hc hh hl =>
    obtain ⟨b₁, b₂, b₃, b₄, rfl, hn⟩ := fourDigits_of_hex hh
    obtain ⟨d₁, d₂, d₃, d₄, rfl, hm⟩ := fourDigits_of_hex hl
    have hp : paired (0xD800 + (c.toNat - 0x10000) / 0x400) (0xDC00 + (c.toNat - 0x10000) % 0x400)
        = c :=
      (congrArg Char.ofNat (by omega)).trans (Char.ofNat_toNat c)
    have ht := textBytes_pair hn (by simp [isTrailing]; omega) (by simp [isLeading]; omega) hm
      (by simp [isTrailing]; omega) done rest
    rwa [hp] at ht

theorem textBytes_content {cs : List Char} (h : Content cs content) (done rest : Bytes) :
    textBytes done (content ++ code '"' :: rest)
      = .ok (done.reverse ++ cs.flatMap String.utf8EncodeChar, rest) := by
  induction h generalizing done with
  | nil => simp [textBytes_quote]
  | cons hc _ ih =>
    rw [List.append_assoc, textBytes_spelled hc, ih]
    simp [pushChar]

/-- However a text is written, it is read. -/
theorem text_of_quoted {s : String} (h : Quoted s bs) :
    ∃ tail, bs = code '"' :: tail ∧ ∀ rest, text (tail ++ rest) = .ok (s, rest) := by
  obtain @⟨content, h⟩ := h
  refine ⟨content ++ [code '"'], rfl, fun rest => ?_⟩
  have ht := textBytes_content h [] rest
  have hs := Text.decode_encode s
  rw [List.reverse_nil, List.nil_append] at ht
  rw [Text.encode] at hs
  rw [List.append_assoc, List.singleton_append, text, ht]
  simp only [bind, Except.bind, hs]
  rfl

end Reading

section Passing

/-- The scan of a string gets as far as the reader of its text. -/
theorem run_of_textBytes (h : textBytes done bs = .ok (content, rest)) (isKey : Bool)
    (stack : List Skip.Frame) :
    Skip.run (.text isKey) stack bs = Skip.resumeText isKey stack rest := by
  fun_induction textBytes done bs with
  | case2 done bs =>
    obtain ⟨-, rfl⟩ := Prod.mk.inj (Except.ok.inj h)
    exact Skip.run_quote isKey stack bs
  | case4 done e bs c he _ ih => exact (Skip.run_short he isKey stack bs).trans (ih h)
  | case13 done u he hu b₁ b₂ b₃ b₄ n hn ht hl s hs v hv d₁ d₂ d₃ d₄ bs m hm hm' _ ih =>
    obtain rfl := Decidable.not_not.mp hu
    obtain rfl := Decidable.not_not.mp hs
    obtain rfl := Decidable.not_not.mp hv
    rw [Skip.run_hex hn, Skip.run_hex hm]
    exact ih h
  | case16 done u he hu b₁ b₂ b₃ b₄ bs n hn ht hl _ ih =>
    obtain rfl := Decidable.not_not.mp hu
    rw [Skip.run_hex hn]
    exact ih h
  | case19 done b bs hq hb hs ih => exact (Skip.run_plain hs hq hb isKey stack bs).trans (ih h)
  | _ => cases h

end Passing

end Synod.Json
