import Mathlib.Data.Bool.AllAny
import Synod.Json.Skip
import Synod.Json.Text
import Synod.Proofs.Json.Grammar

/-!
Well-formed values of any depth are passed over as a whole, whatever they are nested in: the scan
goes on behind the value as if the value had not been there.
-/
namespace Synod.Json

variable {b : UInt8} {bs gap rest : Bytes} {n : Nat}

theorem isSpace_iff : isSpace b = true ↔ b ∈ [' ', '\t', '\n', '\r'].map code := by
  simp [isSpace, code, or_assoc, or_left_comm]

theorem isDigit_iff : isDigit b = true ↔ code '0' ≤ b ∧ b ≤ code '9' := by
  simp [isDigit, code]

/-- No digit is a blank. -/
theorem isSpace_of_isDigit (h : isDigit b = true) : isSpace b = false := by
  have hall : ∀ b ∈ [' ', '\t', '\n', '\r'].map code, isDigit b = false :=
    List.all_iff_forall_prop.mp (by decide)
  cases hs : isSpace b with
  | false => rfl
  | true =>
    rw [hall b (isSpace_iff.mp hs)] at h
    cases h

theorem gap_nil : Gap [] := by
  intro b hb
  cases hb

theorem isSpace_of_gap (hg : Gap gap) (hb : b ∈ gap) : isSpace b = true := isSpace_iff.mpr (hg b hb)

theorem hexDigit?_of_hexDigit (h : HexDigit n b) : hexDigit? b = some n := by
  have hall : ∀ n < 16, hexDigit? (code n.digitChar) = some n ∧
      hexDigit? (code n.digitChar.toUpper) = some n := by decide
  obtain ⟨hn, rfl | rfl⟩ := h
  · exact (hall n hn).1
  · exact (hall n hn).2

theorem fourDigits_of_hex (h : Hex n bs) :
    ∃ b₁ b₂ b₃ b₄, bs = [b₁, b₂, b₃, b₄] ∧ fourDigits b₁ b₂ b₃ b₄ = .ok n := by
  obtain ⟨h₁, h₂, h₃, h₄⟩ := h
  refine ⟨_, _, _, _, rfl, ?_⟩
  rw [fourDigits]
  simp only [hexDigit?_of_hexDigit h₁, hexDigit?_of_hexDigit h₂, hexDigit?_of_hexDigit h₃,
    hexDigit?_of_hexDigit h₄, Except.ok.injEq]
  omega

theorem isSome_of_fourDigits {b₁ b₂ b₃ b₄ : UInt8} (h : fourDigits b₁ b₂ b₃ b₄ = .ok n) :
    (hexDigit? b₁).isSome = true ∧ (hexDigit? b₂).isSome = true ∧ (hexDigit? b₃).isSome = true ∧
      (hexDigit? b₄).isSome = true := by
  unfold fourDigits at h
  split at h
  · simp [*]
  · cases h

/-- Whether a number that stands before a text ends there. -/
def Ends (rest : Bytes) : Prop :=
  ∀ b ∈ rest.head?, isDigit b = false ∧ b ≠ code '.' ∧ Skip.isExponentLetter b = false

theorem ends_nil : Ends [] := by
  intro b hb
  cases hb

theorem ends_cons {c : Char} (h : c ∈ [',', ']', '\x7d']) : Ends (code c :: rest) := by
  have hall : ∀ c ∈ [',', ']', '\x7d'], isDigit (code c) = false ∧ code c ≠ code '.' ∧
      Skip.isExponentLetter (code c) = false := List.all_iff_forall_prop.mp (by decide)
  intro b hb
  obtain rfl := Option.some.inj hb
  exact hall c h

theorem ends_gap (hg : Gap gap) (h : Ends rest) : Ends (gap ++ rest) := by
  cases gap with
  | nil => exact h
  | cons b gap =>
    have hall : ∀ b ∈ [' ', '\t', '\n', '\r'].map code, isDigit b = false ∧ b ≠ code '.' ∧
        Skip.isExponentLetter b = false := List.all_iff_forall_prop.mp (by decide)
    intro d hd
    obtain rfl := Option.some.inj hd
    exact hall b (hg b List.mem_cons_self)

namespace Skip

variable {mode mode' : Mode} {stack stack' outer : List Frame}

/-- Where the scan goes on behind a value. -/
def resume : List Frame → Bytes → Except Error Bytes
  | [], bs => .ok bs
  | frame :: outer, bs => run .after (frame :: outer) bs

theorem run_go (h : step stack b mode = .ok (.go mode' stack')) :
    run mode stack (b :: bs) = run mode' stack' bs := by
  rw [run, h]

theorem run_closed (h : step stack b mode = .ok (closed outer)) :
    run mode stack (b :: bs) = resume outer bs := by
  rw [run, h]
  cases outer <;> rfl

theorem resume_cons (frame : Frame) (outer : List Frame) (bs : Bytes) :
    resume (frame :: outer) bs = run .after (frame :: outer) bs := rfl

/-- The modes in which blanks are passed over. -/
inductive Waits : Mode → List Frame → Prop where
  | value {stack : List Frame} : Waits .value stack
  | firstItem {stack : List Frame} : Waits .firstItem stack
  | firstKey {stack : List Frame} : Waits .firstKey stack
  | key {stack : List Frame} : Waits .key stack
  | colon {stack : List Frame} : Waits .colon stack
  | after {frame : Frame} {outer : List Frame} : Waits .after (frame :: outer)

theorem step_space (hm : Waits mode stack) (hb : isSpace b = true) :
    step stack b mode = .ok (.go mode stack) := by
  cases hm with
  | value | firstItem | firstKey | key | colon => simp [step, hb]
  | @after frame outer => cases frame <;> simp [step, stepAfter, hb]

theorem run_gap (hm : Waits mode stack) (hg : Gap gap) (bs : Bytes) :
    run mode stack (gap ++ bs) = run mode stack bs := by
  induction gap with
  | nil => rfl
  | cons b gap ih =>
    have hb := isSpace_of_gap hg List.mem_cons_self
    rw [List.cons_append, run_go (step_space hm hb)]
    exact ih fun d hd => hg d (List.mem_cons_of_mem b hd)

theorem resume_gap (hg : Gap gap) (frame : Frame) (outer : List Frame) (bs : Bytes) :
    resume (frame :: outer) (gap ++ bs) = resume (frame :: outer) bs :=
  run_gap .after hg bs

section Strings

variable {isKey : Bool} {content : Bytes}

/-- Where the scan goes on behind a string. -/
def resumeText (isKey : Bool) (stack : List Frame) (bs : Bytes) : Except Error Bytes :=
  if isKey then run .colon stack bs else resume stack bs

theorem run_quote (isKey : Bool) (stack : List Frame) (bs : Bytes) :
    run (.text isKey) stack (code '"' :: bs) = resumeText isKey stack bs := by
  cases isKey with
  | true => exact run_go rfl
  | false => exact run_closed rfl

theorem step_hex (hb : (hexDigit? b).isSome = true) (isKey : Bool) (due : Nat) :
    step stack b (.hex isKey (due + 2) true) = .ok (.go (.hex isKey (due + 1) true) stack) := by
  have hv : (Bytes.hexValue? (Char.ofNat b.toNat)).isSome = true := hb
  simp [step, hv]

theorem step_lastHex (hb : (hexDigit? b).isSome = true) (isKey : Bool) :
    step stack b (.hex isKey 1 true) = .ok (.go (.text isKey) stack) := by
  have hv : (Bytes.hexValue? (Char.ofNat b.toNat)).isSome = true := hb
  simp [step, hv]

/-- An escape is passed over if its digits are digits, whatever they spell. -/
theorem run_hex {b₁ b₂ b₃ b₄ : UInt8} (h : fourDigits b₁ b₂ b₃ b₄ = .ok n) (isKey : Bool)
    (stack : List Frame) (bs : Bytes) :
    run (.text isKey) stack (code '\\' :: code 'u' :: b₁ :: b₂ :: b₃ :: b₄ :: bs)
      = run (.text isKey) stack bs := by
  obtain ⟨h₁, h₂, h₃, h₄⟩ := isSome_of_fourDigits h
  calc
    _ = run (.hex isKey 4 true) stack (b₁ :: b₂ :: b₃ :: b₄ :: bs) :=
      (run_go rfl).trans (run_go rfl)
    _ = run (.hex isKey 3 true) stack (b₂ :: b₃ :: b₄ :: bs) := run_go (step_hex h₁ isKey 2)
    _ = run (.hex isKey 2 true) stack (b₃ :: b₄ :: bs) := run_go (step_hex h₂ isKey 1)
    _ = run (.hex isKey 1 true) stack (b₄ :: bs) := run_go (step_hex h₃ isKey 0)
    _ = run (.text isKey) stack bs := run_go (step_lastHex h₄ isKey)

theorem run_short {e c : UInt8} (h : simpleEscape? e = some c) (isKey : Bool) (stack : List Frame)
    (bs : Bytes) :
    run (.text isKey) stack (code '\\' :: e :: bs) = run (.text isKey) stack bs := by
  have hmem : e ∈ escapeLetters.map code := by
    apply Classical.byContradiction
    intro hn
    simp only [escapeLetters, List.map_cons, List.map_nil, List.mem_cons, List.not_mem_nil,
      or_false, not_or] at hn
    simp [simpleEscape?, hn] at h
  have hall : ∀ e ∈ escapeLetters.map code, e ≠ code 'u' :=
    List.all_iff_forall_prop.mp (by decide)
  have hc : (escapeLetters.map code).contains e = true := List.contains_iff_mem.mpr hmem
  exact (run_go rfl).trans (run_go (by simp only [step, hall e hmem, hc, if_false, if_true]))

theorem run_plain (h : ¬ b < 0x20) (hq : b ≠ code '"') (hb : b ≠ code '\\') (isKey : Bool)
    (stack : List Frame) (bs : Bytes) :
    run (.text isKey) stack (b :: bs) = run (.text isKey) stack bs :=
  run_go (by simp [step, hq, hb, h])

theorem run_piece (h : Piece content) (isKey : Bool) (stack : List Frame) (bs : Bytes) :
    run (.text isKey) stack (content ++ bs) = run (.text isKey) stack bs := by
  cases h with
  | plain h hq hb => exact run_plain (UInt8.not_lt.mpr h) hq hb isKey stack bs
  | @short e c h =>
    have hall : ∀ p ∈ shortEscapes, simpleEscape? (code p.1) = some (code p.2) := by decide
    exact run_short (hall (e, c) h) isKey stack bs
  | hex h =>
    obtain ⟨b₁, b₂, b₃, b₄, rfl, hn⟩ := fourDigits_of_hex h
    exact run_hex hn isKey stack bs

theorem run_pieces (h : Pieces content) (isKey : Bool) (stack : List Frame) (bs : Bytes) :
    run (.text isKey) stack (content ++ code '"' :: bs) = resumeText isKey stack bs := by
  induction h with
  | nil => exact run_quote isKey stack bs
  | cons hp _ ih => rw [List.append_assoc, run_piece hp, ih]

end Strings

section Numbers

variable {ds fraction exponent whole : Bytes}

theorem ne_of_isDigit {c : Char} (hb : isDigit b = true) (hc : isDigit (code c) = false) :
    b ≠ code c := by
  rintro rfl
  rw [hc] at hb
  cases hb

/-- The modes in which a number may end. -/
inductive Settled : Mode → Prop where
  | zero : Settled .zero
  | integer : Settled .integer
  | fraction : Settled .fraction
  | power : Settled .power

theorem step_settled (hm : Settled mode) (hr : Ends (b :: rest)) :
    step stack b mode = stepAfter stack b := by
  obtain ⟨hd, hp, he⟩ := hr b rfl
  cases hm <;> simp [step, hd, hp, he]

/-- A number ends before what cannot belong to it, which is seen as if it came after any value. -/
theorem run_settled (hm : Settled mode) (hr : Ends rest) :
    run mode stack rest = resume stack rest := by
  cases rest with
  | nil => cases hm <;> cases stack <;> rfl
  | cons b rest =>
    rw [run, step_settled hm hr]
    cases stack <;> rfl

/-- Digits are read on in a mode that awaits more of them. -/
theorem run_digits (hm : mode ∈ [Mode.integer, .fraction, .power])
    (hd : ∀ b ∈ ds, isDigit b = true) (bs : Bytes) :
    run mode stack (ds ++ bs) = run mode stack bs := by
  induction ds with
  | nil => rfl
  | cons b ds ih =>
    have hb := hd b List.mem_cons_self
    have hs : step stack b mode = .ok (.go mode stack) := by
      simp only [List.mem_cons, List.not_mem_nil, or_false] at hm
      rcases hm with rfl | rfl | rfl <;> simp [step, hb]
    rw [List.cons_append, run_go hs]
    exact ih fun d h => hd d (List.mem_cons_of_mem b h)

/-- The first of some digits leads from one mode to another, in which the others are read. -/
theorem run_firstDigit (hd : Digits ds) (hm : mode' ∈ [Mode.integer, .fraction, .power])
    (hs : ∀ b, isDigit b = true → step stack b mode = .ok (.go mode' stack)) (bs : Bytes) :
    run mode stack (ds ++ bs) = run mode' stack bs := by
  obtain ⟨hne, hall⟩ := hd
  obtain ⟨b, ds, rfl⟩ := List.exists_cons_of_ne_nil hne
  have hb := isDigit_iff.mpr (hall b List.mem_cons_self)
  rw [List.cons_append, run_go (hs b hb)]
  exact run_digits hm (fun d h => isDigit_iff.mpr (hall d (List.mem_cons_of_mem b h))) bs

/-- The digits of an exponent, which may come after a sign, end the number. -/
theorem run_power (hd : Digits ds) (hm : mode = .exponent ∨ mode = .sign) (hr : Ends rest) :
    run mode stack (ds ++ rest) = resume stack rest := by
  have hs (b : UInt8) (hb : isDigit b = true) : step stack b mode = .ok (.go .power stack) := by
    have hplus : b ≠ code '+' := ne_of_isDigit hb rfl
    have hminus : b ≠ code '-' := ne_of_isDigit hb rfl
    rcases hm with rfl | rfl <;> simp [step, hb, hplus, hminus]
  rw [run_firstDigit hd (by simp) hs]
  exact run_settled .power hr

theorem run_exponent (he : Exponent exponent) (hm : mode ∈ [Mode.zero, .integer, .fraction])
    (hr : Ends rest) : run mode stack (exponent ++ rest) = resume stack rest := by
  simp only [List.mem_cons, List.not_mem_nil, or_false] at hm
  rcases he with rfl | ⟨letter, sign, ds, hl, hsign, hd, rfl⟩
  · rcases hm with rfl | rfl | rfl
    · exact run_settled .zero hr
    · exact run_settled .integer hr
    · exact run_settled .fraction hr
  have hletter : step stack letter mode = .ok (.go .exponent stack) := by
    simp only [List.map_cons, List.map_nil, List.mem_cons, List.not_mem_nil, or_false] at hl
    rcases hm with rfl | rfl | rfl <;> rcases hl with rfl | rfl <;> rfl
  rw [List.cons_append, List.cons_append, run_go hletter, List.append_assoc]
  simp only [List.mem_cons, List.not_mem_nil, or_false] at hsign
  rcases hsign with rfl | rfl | rfl
  · exact run_power hd (Or.inl rfl) hr
  · exact (run_go rfl).trans (run_power hd (Or.inr rfl) hr)
  · exact (run_go rfl).trans (run_power hd (Or.inr rfl) hr)

theorem run_fraction (hf : Fraction fraction) (he : Exponent exponent)
    (hm : mode = .zero ∨ mode = .integer) (hr : Ends rest) :
    run mode stack (fraction ++ (exponent ++ rest)) = resume stack rest := by
  rcases hf with rfl | ⟨ds, hd, rfl⟩
  · have hm' : mode ∈ [Mode.zero, .integer, .fraction] := by
      rcases hm with rfl | rfl <;> simp
    exact run_exponent he hm' hr
  have hpoint : step stack (code '.') mode = .ok (.go .point stack) := by
    rcases hm with rfl | rfl <;> rfl
  have hdigit (b : UInt8) (hb : isDigit b = true) :
      step stack b .point = .ok (.go .fraction stack) := by simp [step, hb]
  rw [List.cons_append, run_go hpoint, run_firstDigit hd (by simp) hdigit]
  exact run_exponent he (by simp) hr

theorem run_whole (hw : Whole whole) (hf : Fraction fraction) (he : Exponent exponent)
    (hm : mode = .value ∨ mode = .minus) (hr : Ends rest) :
    run mode stack (whole ++ (fraction ++ (exponent ++ rest))) = resume stack rest := by
  rcases hw with rfl | ⟨⟨hne, hall⟩, hlead⟩
  · have hzero : step stack (code '0') mode = .ok (.go .zero stack) := by
      rcases hm with rfl | rfl <;> rfl
    exact (run_go hzero).trans (run_fraction hf he (Or.inl rfl) hr)
  obtain ⟨b, ds, rfl⟩ := List.exists_cons_of_ne_nil hne
  have hb := isDigit_iff.mpr (hall b List.mem_cons_self)
  have hzero : b ≠ code '0' := fun h => hlead (congrArg some h)
  have hs : step stack b mode = .ok (.go .integer stack) := by
    have hspace := isSpace_of_isDigit hb
    rcases hm with rfl | rfl
    · simp [step, start, hb, hzero, hspace, ne_of_isDigit hb (c := 'n') rfl,
        ne_of_isDigit hb (c := 't') rfl, ne_of_isDigit hb (c := 'f') rfl,
        ne_of_isDigit hb (c := '-') rfl]
    · simp [step, hb, hzero]
  have hrest : ∀ d ∈ ds, isDigit d = true :=
    fun d hd => isDigit_iff.mpr (hall d (List.mem_cons_of_mem b hd))
  rw [List.cons_append, run_go hs, run_digits (by simp) hrest]
  exact run_fraction hf he (Or.inr rfl) hr

theorem run_numeral {v : Bytes} (h : Numeral v) (stack : List Frame) (hr : Ends rest) :
    run .value stack (v ++ rest) = resume stack rest := by
  obtain ⟨hs, hw, hf, he⟩ := h
  simp only [List.mem_cons, List.not_mem_nil, or_false] at hs
  rw [List.append_assoc, List.append_assoc, List.append_assoc]
  rcases hs with rfl | rfl
  · exact run_whole hw hf he (Or.inl rfl) hr
  · exact (run_go rfl).trans (run_whole hw hf he (Or.inr rfl) hr)

end Numbers

section Forms

variable {v : Bytes}

theorem run_word {letters : String} (h : letters ∈ ["null", "true", "false"]) (stack : List Frame)
    (bs : Bytes) : run .value stack (letters.toList.map code ++ bs) = resume stack bs := by
  simp only [List.mem_cons, List.not_mem_nil, or_false] at h
  rcases h with rfl | rfl | rfl
  · exact (run_go rfl).trans ((run_go rfl).trans ((run_go rfl).trans (run_closed rfl)))
  · exact (run_go rfl).trans ((run_go rfl).trans ((run_go rfl).trans (run_closed rfl)))
  · exact (run_go rfl).trans ((run_go rfl).trans ((run_go rfl).trans ((run_go rfl).trans
      (run_closed rfl))))

theorem lead_of_whole (h : Whole whole) : ∃ b tail, whole = b :: tail ∧ isDigit b = true := by
  rcases h with rfl | ⟨⟨hne, hall⟩, _⟩
  · exact ⟨_, _, rfl, rfl⟩
  · obtain ⟨b, tail, rfl⟩ := List.exists_cons_of_ne_nil hne
    exact ⟨b, tail, rfl, isDigit_iff.mpr (hall b List.mem_cons_self)⟩

/-- What a value begins with could not end a list. -/
theorem lead_of_form (h : Form .value v) :
    ∃ b tail, v = b :: tail ∧ isSpace b = false ∧ b ≠ code ']' := by
  cases h with
  | @word letters h =>
    simp only [List.mem_cons, List.not_mem_nil, or_false] at h
    rcases h with rfl | rfl | rfl <;> exact ⟨_, _, rfl, rfl, by decide⟩
  | number h =>
    obtain ⟨hs, hw, hf, he⟩ := h
    simp only [List.mem_cons, List.not_mem_nil, or_false] at hs
    rcases hs with rfl | rfl
    · obtain ⟨b, tail, rfl, hb⟩ := lead_of_whole hw
      exact ⟨b, _, rfl, isSpace_of_isDigit hb, ne_of_isDigit hb rfl⟩
    · exact ⟨_, _, rfl, rfl, by decide⟩
  | text h => exact ⟨_, _, rfl, rfl, by decide⟩
  | emptyList h => exact ⟨_, _, rfl, rfl, by decide⟩
  | list h => exact ⟨_, _, rfl, rfl, by decide⟩
  | emptyObject h => exact ⟨_, _, rfl, rfl, by decide⟩
  | object h => exact ⟨_, _, rfl, rfl, by decide⟩

theorem run_firstValue (h : Form .value v) (stack : List Frame) (bs : Bytes) :
    run .firstItem stack (v ++ bs) = run .value stack (v ++ bs) := by
  obtain ⟨b, tail, rfl, hs, hb⟩ := lead_of_form h
  have hstep : step stack b .firstItem = step stack b .value := by simp [step, hs, hb]
  rw [List.cons_append, run, run, hstep]

/-- The first item of a list is read as any other. -/
theorem run_firstItem (h : Form .items v) (stack : List Frame) (bs : Bytes) :
    run .firstItem stack (v ++ bs) = run .value stack (v ++ bs) := by
  have hitem {v : Bytes} (h : Form .item v) (bs : Bytes) :
      run .firstItem stack (v ++ bs) = run .value stack (v ++ bs) := by
    cases h with
    | item hb h ha =>
      rw [List.append_assoc, List.append_assoc, run_gap .firstItem hb,
        run_gap .value hb]
      exact run_firstValue h stack _
  cases h with
  | lastItem h => exact hitem h bs
  | moreItems h hs =>
    rw [List.append_assoc]
    exact hitem h _

/-- The first member of an object is read as any other. -/
theorem run_firstKey (h : Form .members v) (stack : List Frame) (bs : Bytes) :
    run .firstKey stack (v ++ bs) = run .key stack (v ++ bs) := by
  have hmember {v : Bytes} (h : Form .member v) (bs : Bytes) :
      run .firstKey stack (v ++ bs) = run .key stack (v ++ bs) := by
    cases h with
    | member hb hk ha h =>
      simp only [List.append_assoc, List.cons_append]
      rw [run_gap .firstKey hb, run_gap .key hb]
      rfl
  cases h with
  | lastMember h => exact hmember h bs
  | moreMembers h hs =>
    rw [List.append_assoc]
    exact hmember h _

/-- What the scan makes of a phrase: it is behind the phrase, and in the mode that is due there. -/
def Passed : Part → Bytes → Prop
  | .value, v => ∀ stack rest, Ends rest → run .value stack (v ++ rest) = resume stack rest
  | .item, bs => ∀ frame outer rest, Ends rest →
      run .value (frame :: outer) (bs ++ rest) = resume (frame :: outer) rest
  | .items, bs => ∀ outer rest,
      run .value (.list :: outer) (bs ++ code ']' :: rest) = resume outer rest
  | .member, bs => ∀ frame outer rest, Ends rest →
      run .key (frame :: outer) (bs ++ rest) = resume (frame :: outer) rest
  | .members, bs => ∀ outer rest,
      run .key (.object :: outer) (bs ++ code '\x7d' :: rest) = resume outer rest

theorem passed_of_form {part : Part} {bs : Bytes} (h : Form part bs) : Passed part bs := by
  induction h with
  | word h =>
    intro stack rest _
    exact run_word h stack rest
  | number h =>
    intro stack rest hr
    exact run_numeral h stack hr
  | text h =>
    intro stack rest _
    simp only [List.cons_append, List.append_assoc, List.nil_append]
    exact (run_go rfl).trans (run_pieces h false stack rest)
  | emptyList hg =>
    intro stack rest _
    simp only [List.cons_append, List.append_assoc, List.nil_append]
    rw [run_go rfl, run_gap .firstItem hg]
    exact run_closed rfl
  | list h ih =>
    intro stack rest _
    simp only [List.cons_append, List.append_assoc, List.nil_append]
    rw [run_go rfl, run_firstItem h]
    exact ih stack rest
  | emptyObject hg =>
    intro stack rest _
    simp only [List.cons_append, List.append_assoc, List.nil_append]
    rw [run_go rfl, run_gap .firstKey hg]
    exact run_closed rfl
  | object h ih =>
    intro stack rest _
    simp only [List.cons_append, List.append_assoc, List.nil_append]
    rw [run_go rfl, run_firstKey h]
    exact ih stack rest
  | item hb h ha ih =>
    intro frame outer rest hr
    rw [List.append_assoc, List.append_assoc, run_gap .value hb,
      ih _ _ (ends_gap ha hr)]
    exact resume_gap ha frame outer rest
  | lastItem h ih =>
    intro outer rest
    rw [ih _ _ _ (ends_cons (by simp))]
    exact run_closed rfl
  | moreItems h hs ih ihs =>
    intro outer rest
    rw [List.append_assoc, List.cons_append, ih _ _ _ (ends_cons (by simp)), resume_cons,
      run_go rfl]
    exact ihs outer rest
  | member hb hk ha h ih =>
    intro frame outer rest hr
    simp only [List.append_assoc, List.cons_append]
    rw [run_gap .key hb, run_go rfl, run_pieces hk]
    change run .colon _ _ = _
    rw [run_gap .colon ha, run_go rfl]
    exact ih frame outer rest hr
  | lastMember h ih =>
    intro outer rest
    rw [ih _ _ _ (ends_cons (by simp))]
    exact run_closed rfl
  | moreMembers h hs ih ihs =>
    intro outer rest
    rw [List.append_assoc, List.cons_append, ih _ _ _ (ends_cons (by simp)), resume_cons,
      run_go rfl]
    exact ihs outer rest

/-- A well-formed value, blanks before it, is passed over up to its end. -/
theorem value_of_form (hg : Gap gap) (h : Form .value v) (hr : Ends rest) :
    value (gap ++ (v ++ rest)) = .ok rest := by
  rw [value, run_gap .value hg]
  exact passed_of_form h [] rest hr

end Forms

end Skip
end Synod.Json
