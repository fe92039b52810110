import Mathlib.Data.List.TakeWhile
import Synod.Json.Layout
import Synod.Proofs.Json.Integers
import Synod.Proofs.Json.Strings

/-!
The values of a layout's members. Every way to write a machine word or a list of texts is read as
it, up to its end, and what is read as one is passed over up to the same place.
-/
namespace Synod.Json

variable {α : Type} {b : UInt8} {bs v gap gap' rest left : Bytes} {s : String}
  {ss done : List String} {n : UInt64} {first more : Bool} {form : α → Bytes → Prop} {x : α}

/-- A reader that takes every written form of a value as that value, blanks before it. -/
def Reads (read : Parser α) (form : α → Bytes → Prop) : Prop :=
  ∀ x v gap rest, form x v → Gap gap → Ends rest → read (gap ++ (v ++ rest)) = .ok (x, rest)

/-- A reader of values that are passed over up to where it ends. -/
def Passes (read : Parser α) : Prop :=
  ∀ bs x rest, read bs = .ok (x, rest) → Skip.value bs = .ok rest

section Blanks

theorem skipSpace_gap (hg : Gap gap) (bs : Bytes) : skipSpace (gap ++ bs) = skipSpace bs := by
  induction gap with
  | nil => rfl
  | cons b gap ih =>
    have hb := isSpace_of_gap hg List.mem_cons_self
    rw [skipSpace, List.cons_append, List.dropWhile_cons_of_pos hb]
    exact ih fun d hd => hg d (List.mem_cons_of_mem b hd)

theorem skipSpace_cons (hb : isSpace b = false) (bs : Bytes) : skipSpace (b :: bs) = b :: bs :=
  List.dropWhile_cons_of_neg (by simp [hb])

theorem skipSpace_gap_cons (hg : Gap gap) (hb : isSpace b = false) (bs : Bytes) :
    skipSpace (gap ++ b :: bs) = b :: bs := by
  rw [skipSpace_gap hg, skipSpace_cons hb]

theorem exists_gap (bs : Bytes) : ∃ gap, Gap gap ∧ bs = gap ++ skipSpace bs := by
  refine ⟨bs.takeWhile isSpace, ?_, List.takeWhile_append_dropWhile.symm⟩
  intro b hb
  exact isSpace_iff.mp (List.mem_takeWhile_imp hb)

/-- Where blanks are passed over, a text is as good as what is left of it without them. -/
theorem run_skipSpace {mode : Skip.Mode} {stack : List Skip.Frame} (hm : Skip.Waits mode stack)
    (bs : Bytes) : Skip.run mode stack bs = Skip.run mode stack (skipSpace bs) := by
  obtain ⟨gap, hg, hbs⟩ := exists_gap bs
  calc
    Skip.run mode stack bs = Skip.run mode stack (gap ++ skipSpace bs) := by rw [← hbs]
    _ = Skip.run mode stack (skipSpace bs) := Skip.run_gap hm hg _

/-- What is left of a text without its blanks begins with none. -/
theorem isSpace_of_skipSpace (h : skipSpace bs = b :: rest) : isSpace b = false := by
  have hb := List.head?_dropWhile_not isSpace bs
  rw [skipSpace] at h
  rwa [h] at hb

end Blanks

section Words

theorem run_of_text (h : text bs = .ok (s, rest)) (isKey : Bool) (stack : List Skip.Frame) :
    Skip.run (.text isKey) stack bs = Skip.resumeText isKey stack rest := by
  obtain ⟨⟨content, left⟩, hbytes, h⟩ := bind_eq_ok h
  dsimp only at h
  split at h
  · obtain ⟨-, rfl⟩ := Prod.mk.inj (Except.ok.inj h)
    exact run_of_textBytes hbytes isKey stack
  · cases h

theorem reads_readWord64 :
    Reads readWord64 fun n v => v = (Nat.toDigits 10 n.toNat).map code := by
  rintro n _ gap rest rfl hg hr
  have hread := number_of_toDigits n hr
  obtain ⟨b, tail, hds, hb⟩ := Skip.lead_of_whole (whole_toDigits n.toNat)
  rw [hds, List.cons_append] at hread ⊢
  rw [readWord64, skipSpace_gap_cons hg (isSpace_of_isDigit hb)]
  simp only [hb, or_true, if_true, hread]

theorem passes_readWord64 : Passes readWord64 := by
  intro bs n rest h
  rw [Skip.value, run_skipSpace .value]
  unfold readWord64 at h
  split at h
  · cases h
  rename_i b r hbs
  rw [hbs]
  split at h
  · split at h
    · rename_i hnumber
      obtain ⟨rfl, rfl⟩ := Prod.mk.inj (Except.ok.inj h)
      exact run_of_number hnumber
    all_goals cases h
  · cases h

theorem readText_of_quoted (h : Quoted s v) (hg : Gap gap) (rest : Bytes) :
    readText (gap ++ (v ++ rest)) = .ok (s, rest) := by
  obtain ⟨tail, rfl, htext⟩ := text_of_quoted h
  rw [readText, List.cons_append, skipSpace_gap_cons hg rfl]
  exact htext rest

theorem run_of_readText (h : readText bs = .ok (s, rest)) (stack : List Skip.Frame) :
    Skip.run .value stack bs = Skip.resume stack rest := by
  rw [run_skipSpace .value]
  unfold readText at h
  split at h
  · cases h
  rename_i b r hbs
  rw [hbs]
  split at h
  · rename_i hb
    subst hb
    exact (Skip.run_go rfl).trans (run_of_text h false stack)
  · cases h

end Words

section Items

/-- What comes before an item of a list or a member of an object, other than blanks. -/
def lead (first : Bool) : Bytes := if first then [] else [code ',']

theorem nextItem_more (hg : Gap gap) (hg' : Gap gap') (hs : isSpace b = false) (hb : b ≠ code ']')
    (first : Bool) (rest : Bytes) :
    nextItem first (gap ++ (lead first ++ (gap' ++ b :: rest))) = .ok (true, b :: rest) := by
  cases first with
  | true =>
    simp only [lead, if_true, List.nil_append]
    rw [nextItem, skipSpace_gap hg, skipSpace_gap_cons hg' hs]
    simp only [hb, if_true, if_false]
  | false =>
    simp only [lead, Bool.false_eq_true, if_false, List.singleton_append]
    rw [nextItem, skipSpace_gap_cons hg rfl]
    have hcomma : code ',' ≠ code ']' := by decide
    simp only [hcomma, if_true, if_false, Bool.false_eq_true, skipSpace_gap_cons hg' hs, hb]

theorem nextItem_end (hg : Gap gap) (first : Bool) (rest : Bytes) :
    nextItem first (gap ++ code ']' :: rest) = .ok (false, code ']' :: rest) := by
  rw [nextItem, skipSpace_gap_cons hg rfl]
  simp

/-- An item takes its place behind those that were read before. -/
theorem readItems_step (h : Quoted s v) (hg : Gap gap) (hg' : Gap gap') (fuel : Nat)
    (done : List String) (rest : Bytes) :
    readItems (fuel + 1) done (gap ++ (lead done.isEmpty ++ (gap' ++ (v ++ rest))))
      = readItems fuel (s :: done) rest := by
  have hread := readText_of_quoted h gap_nil rest
  obtain ⟨tail, rfl, -⟩ := text_of_quoted h
  rw [List.nil_append] at hread
  rw [List.cons_append] at hread ⊢
  rw [readItems, nextItem_more hg hg' rfl (by decide)]
  simp only [bind, Except.bind, if_true, hread]

theorem readItems_end (hg : Gap gap) (fuel : Nat) (done : List String) (rest : Bytes) :
    readItems (fuel + 1) done (gap ++ code ']' :: rest) = .ok (done.reverse, code ']' :: rest) := by
  rw [readItems, nextItem_end hg]
  rfl

theorem readItems_of_commas (h : Commas (Spaced Quoted) ss v) (rest : Bytes) :
    ∀ fuel done gap, ss.length < fuel → Gap gap →
      readItems fuel done (gap ++ (lead done.isEmpty ++ (v ++ code ']' :: rest)))
        = .ok (done.reverse ++ ss, code ']' :: rest) := by
  induction h with
  | one h =>
    intro fuel done gap hf hg
    obtain ⟨hb, hq, ha⟩ := h
    obtain ⟨fuel, rfl⟩ : ∃ k, fuel = k + 2 := ⟨fuel - 2, by simp at hf; omega⟩
    simp only [List.append_assoc]
    rw [readItems_step hq hg hb, readItems_end ha]
    simp
  | @more s _ _ _ h _ ih =>
    intro fuel done gap hf hg
    obtain ⟨hb, hq, ha⟩ := h
    obtain ⟨fuel, rfl⟩ : ∃ k, fuel = k + 1 := ⟨fuel - 1, by omega⟩
    simp only [List.append_assoc, List.cons_append]
    rw [readItems_step hq hg hb]
    have hrest := ih fuel (s :: done) _ (by simpa using hf) ha
    simpa [lead] using hrest

/-- Forms that are never empty are no more than the bytes that they take together. -/
theorem length_le_of_commas {xs : List α} (hform : ∀ x bs, form x bs → bs ≠ [])
    (h : Commas (Spaced form) xs v) : xs.length ≤ v.length := by
  have hspaced {x : α} {bs : Bytes} (h : Spaced form x bs) : 0 < bs.length := by
    obtain ⟨_, h, _⟩ := h
    have hpos := List.length_pos_iff.mpr (hform _ _ h)
    simp only [List.length_append]
    omega
  induction h with
  | one h => exact hspaced h
  | more h _ ih =>
    have hpos := hspaced h
    simp only [List.length_cons, List.length_append]
    omega

theorem ne_nil_of_quoted (s : String) (bs : Bytes) (h : Quoted s bs) : bs ≠ [] := by
  obtain ⟨_⟩ := h
  exact List.cons_ne_nil _ _

theorem endList_close (rest : Bytes) : endList (code ']' :: rest) = .ok ((), rest) := by
  rw [endList, skipSpace_cons rfl]
  rfl

theorem readTexts_open (hg : Gap gap) (rest : Bytes) :
    readTexts (gap ++ code '[' :: rest) = (do
      let (items, r) ← readItems (rest.length + 1) [] rest
      let ((), r) ← endList r
      return (items, r)) := by
  rw [readTexts, skipSpace_gap_cons hg rfl]
  rfl

theorem reads_readTexts : Reads readTexts TextList := by
  intro ss v gap rest h hg _
  cases h with
  | empty hg' =>
    simp only [List.cons_append, List.append_assoc, List.nil_append]
    rw [readTexts_open hg, readItems_end hg']
    simp only [bind, Except.bind, endList_close]
    rfl
  | @full _ bs h =>
    simp only [List.cons_append, List.append_assoc, List.nil_append]
    have hlen : ss.length < (bs ++ code ']' :: rest).length + 1 := by
      have hle := length_le_of_commas ne_nil_of_quoted h
      simp only [List.length_append]
      omega
    have hitems : readItems _ [] (bs ++ code ']' :: rest) = .ok (ss, code ']' :: rest) :=
      readItems_of_commas h rest _ [] [] hlen gap_nil
    rw [readTexts_open hg, hitems]
    simp only [bind, Except.bind, endList_close]
    rfl

/-- The mode in which the scan of a list awaits an item that is the first or one after another. -/
def itemMode (first : Bool) : Skip.Mode := if first then .firstItem else .after

theorem run_of_nextItem (h : nextItem first bs = .ok (true, left)) (outer : List Skip.Frame) :
    Skip.run (itemMode first) (.list :: outer) bs = Skip.run .value (.list :: outer) left := by
  unfold nextItem at h
  split at h
  · cases h
  rename_i b r hbs
  have hs := isSpace_of_skipSpace hbs
  split at h
  · cases h
  rename_i hb
  cases first with
  | true =>
    obtain ⟨-, rfl⟩ := Prod.mk.inj (Except.ok.inj h)
    have hstep : Skip.step (.list :: outer) b .firstItem = Skip.step (.list :: outer) b .value := by
      simp [Skip.step, hs, hb]
    change Skip.run .firstItem _ bs = _
    rw [run_skipSpace .firstItem, hbs, Skip.run, Skip.run, hstep]
  | false =>
    simp only [Bool.false_eq_true, if_false] at h
    split at h
    · rename_i hcomma
      subst hcomma
      split at h
      · cases h
      rename_i c r' hr
      split at h
      · cases h
      obtain ⟨-, rfl⟩ := Prod.mk.inj (Except.ok.inj h)
      change Skip.run .after _ bs = _
      rw [run_skipSpace .after, hbs, Skip.run_go rfl, run_skipSpace .value, hr]
    · cases h

theorem run_of_lastItem (h : nextItem first bs = .ok (false, left)) (outer : List Skip.Frame) :
    ∃ r, left = code ']' :: r ∧
      Skip.run (itemMode first) (.list :: outer) bs = Skip.resume outer r := by
  unfold nextItem at h
  split at h
  · cases h
  rename_i b r hbs
  split at h
  · rename_i hb
    subst hb
    obtain ⟨-, rfl⟩ := Prod.mk.inj (Except.ok.inj h)
    refine ⟨r, rfl, ?_⟩
    cases first with
    | true =>
      change Skip.run .firstItem _ bs = _
      rw [run_skipSpace .firstItem, hbs]
      exact Skip.run_closed rfl
    | false =>
      change Skip.run .after _ bs = _
      rw [run_skipSpace .after, hbs]
      exact Skip.run_closed rfl
  · split at h
    · cases h
    split at h
    · split at h
      · cases h
      split at h <;> cases h
    · cases h

theorem run_of_readItems {fuel : Nat} (h : readItems fuel done bs = .ok (ss, left))
    (outer : List Skip.Frame) :
    ∃ r, left = code ']' :: r ∧
      Skip.run (itemMode done.isEmpty) (.list :: outer) bs = Skip.resume outer r := by
  induction fuel generalizing done bs with
  | zero => cases h
  | succ fuel ih =>
    rw [readItems] at h
    obtain ⟨⟨more, r⟩, hnext, h⟩ := bind_eq_ok h
    cases more with
    | false =>
      obtain ⟨-, rfl⟩ := Prod.mk.inj (Except.ok.inj h)
      exact run_of_lastItem hnext outer
    | true =>
      obtain ⟨⟨s, r'⟩, htext, h⟩ := bind_eq_ok h
      obtain ⟨r'', rfl, hrun⟩ := ih h
      refine ⟨r'', rfl, ?_⟩
      rw [run_of_nextItem hnext, run_of_readText htext]
      exact hrun

theorem passes_readTexts : Passes readTexts := by
  intro bs ss rest h
  rw [Skip.value, run_skipSpace .value]
  unfold readTexts at h
  split at h
  · cases h
  rename_i b r hbs
  rw [hbs]
  split at h
  · rename_i hb
    subst hb
    obtain ⟨⟨items, left⟩, hitems, h⟩ := bind_eq_ok h
    obtain ⟨⟨⟨⟩, r'⟩, hend, h⟩ := bind_eq_ok h
    obtain ⟨-, rfl⟩ := Prod.mk.inj (Except.ok.inj h)
    obtain ⟨r'', rfl, hrun⟩ := run_of_readItems hitems []
    rw [endList_close] at hend
    obtain rfl := (Prod.mk.inj (Except.ok.inj hend)).2
    exact (Skip.run_go rfl).trans hrun
  · cases h

end Items

end Synod.Json
