import Synod.Frame
import Synod.Proofs.Codec

/-!
What a stream of bytes begins with: complete frames whose contents are values of one kind. The
longest run of them is determined by the stream.
-/
namespace Synod

namespace Frame

variable {stream body rest : Bytes}

theorem split?_of_append {n : Nat} {first : Bytes} (h : first.length = n) (rest : Bytes) :
    Bytes.split? n (first ++ rest) = some (first, rest) :=
  h ▸ Bytes.split?_append first rest

theorem front_encode (h : body.length ≤ limit) (rest : Bytes) :
    front (encode body ++ rest) = .frame body rest := by
  have hlt : body.length < Bytes.bound 4 := Nat.lt_of_le_of_lt h (by decide)
  have hn := Bytes.ofBigEndian_bigEndian hlt
  rw [encode, List.append_assoc]
  simp [front, split?_of_append (Bytes.length_bigEndian 4 body.length), hn, Nat.not_lt.mpr h,
    Bytes.split?_append]

theorem front_encode_self (h : body.length ≤ limit) : front (encode body) = .frame body [] := by
  have hf := front_encode h []
  rwa [List.append_nil] at hf

/-- A stream begins with a frame exactly if its length is within the limit and is followed by as many
bytes. -/
theorem front_eq_frame_iff :
    front stream = .frame body rest ↔ body.length ≤ limit ∧ stream = encode body ++ rest := by
  constructor
  · intro h
    unfold front at h
    split at h
    · cases h
    · rename_i length tail hs
      obtain ⟨rfl, hl⟩ := Bytes.split?_eq_some hs
      dsimp only at h
      split at h
      · cases h
      · rename_i hle
        split at h
        · cases h
        · rename_i body' rest' ht
          obtain ⟨rfl, hn⟩ := Bytes.split?_eq_some ht
          obtain ⟨rfl, rfl⟩ := Front.frame.inj h
          refine ⟨hn ▸ Nat.not_lt.mp hle, ?_⟩
          rw [encode, hn, ← hl, Bytes.bigEndian_ofBigEndian, List.append_assoc]
  · rintro ⟨hl, rfl⟩
    exact front_encode hl rest

/-- What is too long stays so, whatever follows. -/
theorem front_oversized_append (h : front stream = .oversized) (more : Bytes) :
    front (stream ++ more) = .oversized := by
  unfold front at h
  split at h
  · cases h
  · rename_i length tail hs
    obtain ⟨rfl, hl⟩ := Bytes.split?_eq_some hs
    dsimp only at h
    split at h
    · rename_i hlt
      simp [front, split?_of_append hl, hlt, List.append_assoc]
    · split at h <;> cases h

theorem front_frame_append (h : front stream = .frame body rest) (more : Bytes) :
    front (stream ++ more) = .frame body (rest ++ more) := by
  obtain ⟨hl, rfl⟩ := front_eq_frame_iff.mp h
  rw [List.append_assoc]
  exact front_encode hl _

end Frame

section Carries

variable {α : Type} [Wire α] {stream rest : Bytes} {x : α} {xs ys : List α}

/-- Frames of values at the beginning of a stream, and what is left of it. In a frame a value may be
followed by other bytes. -/
inductive Carries : Bytes → List α → Bytes → Prop where
  | nil {rest : Bytes} : Carries rest [] rest
  | cons {body stream rest : Bytes} {x : α} {xs : List α} (hl : body.length ≤ Frame.limit)
      (hx : Wire.decode body = .ok x) (h : Carries stream xs rest) :
      Carries (Frame.encode body ++ stream) (x :: xs) rest

/-- The values in the longest run of frames that a stream begins with. -/
structure Leads (stream : Bytes) (xs : List α) : Prop where
  carries : ∃ rest, Carries stream xs rest
  longest : ∀ ys rest, Carries stream ys rest → ys <+: xs

/-- Whether a stream does not begin with the frame of a value. -/
def Stuck (α : Type) [Wire α] (stream : Bytes) : Prop :=
  ∀ body rest, Frame.front stream = .frame body rest → ∀ x : α, Wire.decode body ≠ .ok x

theorem exists_carries (α : Type) [Wire α] (stream : Bytes) :
    ∃ (xs : List α) (rest : Bytes), Carries stream xs rest ∧ Stuck α rest := by
  induction hn : stream.length using Nat.strongRecOn generalizing stream with
  | ind n ih =>
    cases hf : Frame.front stream with
    | frame body rest =>
      cases hx : (Wire.decode body : Except WireError α) with
      | ok x =>
        have hlt := Frame.length_rest_lt hf
        obtain ⟨xs, left, hc, hs⟩ := ih _ (hn ▸ hlt) rest rfl
        obtain ⟨hl, rfl⟩ := Frame.front_eq_frame_iff.mp hf
        exact ⟨x :: xs, left, .cons hl hx hc, hs⟩
      | error e => exact ⟨[], stream, .nil, by simp [Stuck, hf, hx]⟩
    | oversized => exact ⟨[], stream, .nil, by simp [Stuck, hf]⟩
    | unfinished => exact ⟨[], stream, .nil, by simp [Stuck, hf]⟩

theorem prefix_of_carries (h : Carries stream xs rest) (hs : Stuck α rest) {left : Bytes}
    (hy : Carries stream ys left) : ys <+: xs := by
  induction h generalizing ys with
  | nil =>
    cases hy with
    | nil => exact List.prefix_rfl
    | cons hl hx _ => exact absurd hx (hs _ _ (Frame.front_encode hl _) _)
  | @cons body stream rest x xs hl hx _ ih =>
    generalize hz : Frame.encode body ++ stream = bytes at hy
    cases hy with
    | nil => exact List.nil_prefix
    | @cons body' stream' _ y ys hl' hy' h' =>
      have hfront := Frame.front_encode hl stream
      rw [hz, Frame.front_encode hl'] at hfront
      obtain ⟨rfl, rfl⟩ := Frame.Front.frame.inj hfront
      obtain rfl := Except.ok.inj (hy'.symm.trans hx)
      exact List.prefix_cons_inj y |>.mpr (ih hs h')

theorem leads_of_carries (h : Carries stream xs rest) (hs : Stuck α rest) : Leads stream xs :=
  ⟨⟨rest, h⟩, fun _ _ hy => prefix_of_carries h hs hy⟩

theorem exists_leads (α : Type) [Wire α] (stream : Bytes) : ∃ xs : List α, Leads stream xs := by
  obtain ⟨xs, rest, h, hs⟩ := exists_carries α stream
  exact ⟨xs, leads_of_carries h hs⟩

/-- A longest run ends where no frame of a value follows. -/
theorem stuck_of_leads (h : Leads stream xs) : ∃ rest, Carries stream xs rest ∧ Stuck α rest := by
  obtain ⟨ys, rest, hy, hs⟩ := exists_carries α stream
  obtain ⟨left, hx⟩ := h.carries
  have hle := (h.longest ys rest hy).length_le
  obtain rfl := (prefix_of_carries hy hs hx).eq_of_length_le hle
  exact ⟨rest, hy, hs⟩

theorem stuck_nil : Stuck α [] := by
  rintro body rest ⟨⟩

end Carries

section Lawful

variable {α : Type} [Wire α] [LawfulWire α] {xs : List α}

theorem decode_framed {x : α} (h : (Wire.encode x).length ≤ Frame.limit) :
    Wire.decode (Wire.encode x) = .ok x := by
  have hlt : (Wire.encode x).length < UInt64.size := Nat.lt_of_le_of_lt h (by decide)
  have hd := Wire.decode_encode (LawfulWire.fits_of_length hlt) []
  rwa [List.append_nil] at hd

theorem carries_encode (h : ∀ x ∈ xs, (Wire.encode x).length ≤ Frame.limit) :
    Carries (xs.flatMap fun x => Frame.encode (Wire.encode x)) xs [] := by
  induction xs with
  | nil => exact .nil
  | cons x xs ih =>
    have hx := h x List.mem_cons_self
    exact .cons hx (decode_framed hx) (ih fun y hy => h y (List.mem_cons_of_mem x hy))

end Lawful

end Synod
