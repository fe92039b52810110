import Synod.Text.Utf8

/-! Every text is read back from its bytes, and from no others. -/
namespace Synod.Text

variable {a b d e : UInt8} {n i : Nat} {done : List Char} {r : Bytes} {l : Lead}

/-- A leading byte is not a character by itself. -/
theorem not_ascii_of_lead (h : lead? a = some l) : ¬ a < 0x80 := by
  intro ha
  have hs : a < 0xC2 := UInt8.lt_trans ha (by decide)
  simp [lead?, hs] at h

theorem lead?_two (hl : 0xC2 ≤ a.toNat) (hh : a.toNat < 0xE0) : lead? a = some ⟨2, 0x80, 0xBF⟩ := by
  simp only [lead?, UInt8.lt_iff_toNat_lt, UInt8.le_iff_toNat_le, UInt8.reduceToNat]
  rw [if_neg (by omega), if_pos (by omega)]

theorem lead?_three (hl : 0xE0 ≤ a.toNat) (hh : a.toNat < 0xF0) :
    lead? a = some ⟨3, if a.toNat = 0xE0 then 0xA0 else 0x80,
      if a.toNat = 0xED then 0x9F else 0xBF⟩ := by
  simp only [lead?, UInt8.lt_iff_toNat_lt, UInt8.le_iff_toNat_le, ← UInt8.toNat_inj,
    UInt8.reduceToNat]
  rw [if_neg (by omega), if_neg (by omega)]
  split
  · simp [*]
  · split
    · simp [*]
    · rw [if_pos (by omega)]

theorem lead?_four (hl : 0xF0 ≤ a.toNat) (hh : a.toNat < 0xF5) :
    lead? a = some ⟨4, if a.toNat = 0xF0 then 0x90 else 0x80,
      if a.toNat = 0xF4 then 0x8F else 0xBF⟩ := by
  simp only [lead?, UInt8.lt_iff_toNat_lt, UInt8.le_iff_toNat_le, ← UInt8.toNat_inj,
    UInt8.reduceToNat]
  rw [if_neg (by omega), if_neg (by omega), if_neg (by omega), if_neg (by omega),
    if_neg (by omega)]
  split
  · simp [*]
  · split
    · rw [if_neg (by omega)]
    · rw [if_pos (by omega), if_pos (by omega)]

theorem isContinuation_iff : isContinuation b = true ↔ 0x80 ≤ b.toNat ∧ b.toNat < 0xC0 := by
  simp only [isContinuation, Bool.and_eq_true, decide_eq_true_eq, UInt8.le_iff_toNat_le,
    UInt8.reduceToNat]
  omega

/-- Whether a byte may follow a leading one. -/
theorem follows_iff :
    ¬ (b < l.low ∨ l.high < b) ↔ l.low.toNat ≤ b.toNat ∧ b.toNat ≤ l.high.toNat := by
  rw [UInt8.lt_iff_toNat_lt, UInt8.lt_iff_toNat_lt]
  omega

theorem decodeFrom_one (h : a.toNat < 0x80) :
    decodeFrom i done (a :: r) = decodeFrom (i + 1) (Char.ofNat a.toNat :: done) r := by
  rw [decodeFrom, if_pos (UInt8.lt_iff_toNat_lt.mpr h)]

theorem decodeFrom_two (hl : 0xC2 ≤ a.toNat) (hh : a.toNat < 0xE0)
    (hb : isContinuation b = true) :
    decodeFrom i done (a :: b :: r) = decodeFrom (i + 2) (char2 a b :: done) r := by
  have ha := lead?_two hl hh
  have hf := (follows_iff (b := b) (l := ⟨2, 0x80, 0xBF⟩)).mpr (by
    have := isContinuation_iff.mp hb
    simp only [UInt8.reduceToNat]
    omega)
  rw [decodeFrom, if_neg (not_ascii_of_lead ha)]
  simp only [ha, hf, if_false, if_true]

theorem decodeFrom_three (hl : 0xE0 ≤ a.toNat) (hh : a.toNat < 0xF0)
    (hb : isContinuation b = true) (hlow : a.toNat = 0xE0 → 0xA0 ≤ b.toNat)
    (hhigh : a.toNat = 0xED → b.toNat < 0xA0) (hd : isContinuation d = true) :
    decodeFrom i done (a :: b :: d :: r) = decodeFrom (i + 3) (char3 a b d :: done) r := by
  have ha := lead?_three hl hh
  generalize hlead : Lead.mk 3 _ _ = l at ha
  have hn : l.length = 3 := by rw [← hlead]
  have hf : ¬ (b < l.low ∨ l.high < b) := by
    have := isContinuation_iff.mp hb
    rw [follows_iff, ← hlead]
    dsimp only
    split <;> split <;> simp <;> omega
  rw [decodeFrom, if_neg (not_ascii_of_lead ha)]
  simp [ha, hn, hf, hd]

theorem decodeFrom_four (hl : 0xF0 ≤ a.toNat) (hh : a.toNat < 0xF5)
    (hb : isContinuation b = true) (hlow : a.toNat = 0xF0 → 0x90 ≤ b.toNat)
    (hhigh : a.toNat = 0xF4 → b.toNat < 0x90) (hd : isContinuation d = true)
    (he : isContinuation e = true) :
    decodeFrom i done (a :: b :: d :: e :: r) = decodeFrom (i + 4) (char4 a b d e :: done) r := by
  have ha := lead?_four hl hh
  generalize hlead : Lead.mk 4 _ _ = l at ha
  have hn : l.length = 4 := by rw [← hlead]
  have hf : ¬ (b < l.low ∨ l.high < b) := by
    have := isContinuation_iff.mp hb
    rw [follows_iff, ← hlead]
    dsimp only
    split <;> split <;> simp <;> omega
  rw [decodeFrom, if_neg (not_ascii_of_lead ha)]
  simp [ha, hn, hf, hd, he]

theorem toNat_tail (n : Nat) : (UInt8.ofNat (n % 0x40 + 0x80)).toNat = n % 0x40 + 0x80 := by
  rw [UInt8.toNat_ofNat']
  omega

theorem isContinuation_tail (n : Nat) :
    isContinuation (UInt8.ofNat (n % 0x40 + 0x80)) = true := by
  rw [isContinuation_iff, toNat_tail]
  omega

/-- The bytes of one character are read as that character. -/
theorem decodeFrom_char (i : Nat) (done : List Char) (c : Char) (r : Bytes) :
    decodeFrom i done (String.utf8EncodeChar c ++ r)
      = decodeFrom (i + c.utf8Size) (c :: done) r := by
  have hv : c.toNat < 0xD800 ∨ 0xDFFF < c.toNat ∧ c.toNat < 0x110000 := c.valid
  have hval : c.val.toNat = c.toNat := rfl
  have hc : Char.ofNat c.toNat = c := Char.ofNat_toNat c
  rw [String.utf8EncodeChar, Char.utf8Size]
  simp only [UInt32.le_iff_toNat_le, UInt32.toNat_ofNatLT, hval]
  generalize c.toNat = n at *
  split
  · have ha : (UInt8.ofNat n).toNat = n := by
      rw [UInt8.toNat_ofNat']
      omega
    rw [List.cons_append, List.nil_append, decodeFrom_one (by omega), ha, hc]
  split
  · have ha : (UInt8.ofNat (n / 64 % 0x20 + 0xC0)).toNat = n / 64 + 0xC0 := by
      rw [UInt8.toNat_ofNat']
      omega
    have hn : char2 (UInt8.ofNat (n / 64 % 0x20 + 0xC0)) (UInt8.ofNat (n % 0x40 + 0x80)) = c := by
      rw [char2, ha, toNat_tail, ← hc]
      exact congrArg Char.ofNat (by omega)
    rw [List.cons_append, List.cons_append, List.nil_append,
      decodeFrom_two (by omega) (by omega) (isContinuation_tail n), hn]
  split
  · have ha : (UInt8.ofNat (n / 4096 % 0x10 + 0xE0)).toNat = n / 4096 + 0xE0 := by
      rw [UInt8.toNat_ofNat']
      omega
    have hn : char3 (UInt8.ofNat (n / 4096 % 0x10 + 0xE0)) (UInt8.ofNat (n / 64 % 0x40 + 0x80))
        (UInt8.ofNat (n % 0x40 + 0x80)) = c := by
      rw [char3, ha, toNat_tail, toNat_tail, ← hc]
      exact congrArg Char.ofNat (by omega)
    have hb := toNat_tail (n / 64)
    simp only [List.cons_append, List.nil_append]
    rw [decodeFrom_three (by omega) (by omega) (isContinuation_tail (n / 64)) (by omega)
      (by omega) (isContinuation_tail n), hn]
  · have ha : (UInt8.ofNat (n / 262144 % 0x08 + 0xF0)).toNat = n / 262144 + 0xF0 := by
      rw [UInt8.toNat_ofNat']
      omega
    have hn : char4 (UInt8.ofNat (n / 262144 % 0x08 + 0xF0))
        (UInt8.ofNat (n / 4096 % 0x40 + 0x80)) (UInt8.ofNat (n / 64 % 0x40 + 0x80))
        (UInt8.ofNat (n % 0x40 + 0x80)) = c := by
      rw [char4, ha, toNat_tail, toNat_tail, toNat_tail, ← hc]
      exact congrArg Char.ofNat (by omega)
    have hb := toNat_tail (n / 4096)
    simp only [List.cons_append, List.nil_append]
    rw [decodeFrom_four (by omega) (by omega) (isContinuation_tail (n / 4096)) (by omega)
      (by omega) (isContinuation_tail (n / 64)) (isContinuation_tail n), hn]

theorem decodeFrom_chars (i : Nat) (done cs : List Char) :
    decodeFrom i done (cs.flatMap String.utf8EncodeChar) = .ok (done.reverse ++ cs) := by
  induction cs generalizing i done with
  | nil => simp [decodeFrom]
  | cons c cs ih => rw [List.flatMap_cons, decodeFrom_char, ih]; simp

theorem decode_encode (text : String) : decode (encode text) = .ok text := by
  simp [decode, encode, decodeFrom_chars, Except.map]

/-- What a leading byte can be, and what it announces. -/
theorem lead?_cases (h : lead? a = some l) :
    (0xC2 ≤ a.toNat ∧ a.toNat < 0xE0 ∧ l = ⟨2, 0x80, 0xBF⟩) ∨
      (0xE0 ≤ a.toNat ∧ a.toNat < 0xF0 ∧ l = ⟨3, if a.toNat = 0xE0 then 0xA0 else 0x80,
        if a.toNat = 0xED then 0x9F else 0xBF⟩) ∨
      (0xF0 ≤ a.toNat ∧ a.toNat < 0xF5 ∧ l = ⟨4, if a.toNat = 0xF0 then 0x90 else 0x80,
        if a.toNat = 0xF4 then 0x8F else 0xBF⟩) := by
  by_cases h2 : a.toNat < 0xC2
  · simp [lead?, UInt8.lt_iff_toNat_lt, h2] at h
  by_cases h3 : a.toNat < 0xE0
  · rw [lead?_two (by omega) h3] at h
    exact Or.inl ⟨by omega, h3, (Option.some.inj h).symm⟩
  by_cases h4 : a.toNat < 0xF0
  · rw [lead?_three (by omega) h4] at h
    exact Or.inr (Or.inl ⟨by omega, h4, (Option.some.inj h).symm⟩)
  by_cases h5 : a.toNat < 0xF5
  · rw [lead?_four (by omega) h5] at h
    exact Or.inr (Or.inr ⟨by omega, h5, (Option.some.inj h).symm⟩)
  · simp only [lead?, UInt8.lt_iff_toNat_lt, UInt8.le_iff_toNat_le, ← UInt8.toNat_inj,
      UInt8.reduceToNat] at h
    repeat rw [if_neg (by omega)] at h
    simp at h

/-- A narrowed range of the second byte lies within that of the continuations. -/
theorem range_of_follows {p q : Prop} [Decidable p] [Decidable q] {low high : UInt8}
    (hlow : 0x80 ≤ low.toNat) (hhigh : high.toNat < 0xC0)
    (hf : (if p then low else 0x80).toNat ≤ b.toNat ∧
      b.toNat ≤ (if q then high else 0xBF).toNat) :
    0x80 ≤ b.toNat ∧ b.toNat < 0xC0 ∧ (p → low.toNat ≤ b.toNat) ∧ (q → b.toNat ≤ high.toNat) := by
  by_cases hp : p <;> by_cases hq : q <;> simp [hp, hq] at hf ⊢ <;> omega

theorem toNat_char (h : n < 0xD800 ∨ 0xDFFF < n ∧ n < 0x110000) : (Char.ofNat n).val.toNat = n := by
  have hv : n.isValidChar := h
  rw [Char.ofNat, dif_pos hv]
  rfl

theorem encode_one (h : a < 0x80) : String.utf8EncodeChar (Char.ofNat a.toNat) = [a] := by
  have hn := UInt8.lt_iff_toNat_lt.mp h
  simp only [UInt8.reduceToNat] at hn
  rw [String.utf8EncodeChar, toNat_char (by omega), if_pos (by omega), UInt8.ofNat_toNat]

theorem encode_two (hl : lead? a = some l) (hn : l.length = 2)
    (hf : ¬ (b < l.low ∨ l.high < b)) : String.utf8EncodeChar (char2 a b) = [a, b] := by
  rw [follows_iff] at hf
  obtain ⟨hlow, hhigh, rfl⟩ | ⟨_, _, rfl⟩ | ⟨_, _, rfl⟩ := lead?_cases hl
  · simp only [UInt8.reduceToNat] at hf
    rw [String.utf8EncodeChar, char2, toNat_char (by omega), if_neg (by omega), if_pos (by omega)]
    simp only [List.cons.injEq, ← UInt8.toNat_inj, UInt8.toNat_ofNat', and_true]
    omega
  · simp at hn
  · simp at hn

theorem encode_three (hl : lead? a = some l) (hn : l.length = 3)
    (hf : ¬ (b < l.low ∨ l.high < b)) (hd : isContinuation d = true) :
    String.utf8EncodeChar (char3 a b d) = [a, b, d] := by
  rw [follows_iff] at hf
  have hd := isContinuation_iff.mp hd
  obtain ⟨_, _, rfl⟩ | ⟨hlow, hhigh, rfl⟩ | ⟨_, _, rfl⟩ := lead?_cases hl
  · simp at hn
  · have hb := range_of_follows (by decide) (by decide) hf
    simp only [UInt8.reduceToNat] at hb
    rw [String.utf8EncodeChar, char3, toNat_char (by omega), if_neg (by omega), if_neg (by omega),
      if_pos (by omega)]
    simp only [List.cons.injEq, ← UInt8.toNat_inj, UInt8.toNat_ofNat', and_true]
    omega
  · simp at hn

theorem encode_four (hl : lead? a = some l) (hn2 : l.length ≠ 2) (hn3 : l.length ≠ 3)
    (hf : ¬ (b < l.low ∨ l.high < b)) (hd : isContinuation d = true)
    (he : isContinuation e = true) : String.utf8EncodeChar (char4 a b d e) = [a, b, d, e] := by
  rw [follows_iff] at hf
  have hd := isContinuation_iff.mp hd
  have he := isContinuation_iff.mp he
  obtain ⟨_, _, rfl⟩ | ⟨_, _, rfl⟩ | ⟨hlow, hhigh, rfl⟩ := lead?_cases hl
  · simp at hn2
  · simp at hn3
  · have hb := range_of_follows (by decide) (by decide) hf
    simp only [UInt8.reduceToNat] at hb
    rw [String.utf8EncodeChar, char4, toNat_char (by omega), if_neg (by omega), if_neg (by omega),
      if_neg (by omega)]
    simp only [List.cons.injEq, ← UInt8.toNat_inj, UInt8.toNat_ofNat', and_true]
    omega

/-- Only the bytes of its characters are read as a text. -/
theorem eq_encode_of_decodeFrom {cs : List Char} {bs : Bytes} (h : decodeFrom i done bs = .ok cs) :
    ∃ ds, cs = done.reverse ++ ds ∧ bs = ds.flatMap String.utf8EncodeChar := by
  fun_induction decodeFrom i done bs with
  | case1 i done => exact ⟨[], by simpa using h.symm⟩
  | case2 i done a r ha ih =>
    obtain ⟨ds, rfl, rfl⟩ := ih h
    exact ⟨Char.ofNat a.toNat :: ds, by simp, by simp [encode_one ha]⟩
  | case6 i done a ha l hl b r hf hn ih =>
    obtain ⟨ds, rfl, rfl⟩ := ih h
    exact ⟨char2 a b :: ds, by simp, by simp [encode_two hl hn hf]⟩
  | case9 i done a ha l hl b hf hn2 d r hd hn ih =>
    obtain ⟨ds, rfl, rfl⟩ := ih h
    exact ⟨char3 a b d :: ds, by simp, by simp [encode_three hl hn hf (by simpa using hd)]⟩
  | case12 i done a ha l hl b hf hn2 d hd hn3 e r he ih =>
    obtain ⟨ds, rfl, rfl⟩ := ih h
    exact ⟨char4 a b d e :: ds, by simp,
      by simp [encode_four hl hn2 hn3 hf (by simpa using hd) (by simpa using he)]⟩
  | _ => simp at h

theorem encode_of_decode {bs : Bytes} {text : String} (h : decode bs = .ok text) :
    encode text = bs := by
  unfold decode at h
  cases hd : decodeFrom 0 [] bs with
  | error e => simp [hd, Except.map] at h
  | ok cs =>
    obtain ⟨ds, rfl, rfl⟩ := eq_encode_of_decodeFrom hd
    simp only [hd, Except.map, Except.ok.injEq] at h
    simp [← h, encode]

end Synod.Text
