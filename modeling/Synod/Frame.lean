import Synod.Bytes

/-!
Frames on a stream: a length of four bytes, most significant first, and as many bytes of contents.
Longer contents than the limit are neither sent nor taken.
-/
namespace Synod.Frame

/-- The greatest length of the contents of a frame. -/
def limit : Nat := 8388608

def encode (body : Bytes) : Bytes := Bytes.bigEndian 4 body.length ++ body

/-- What a stream begins with. -/
inductive Front where
  | frame (body rest : Bytes)
  | oversized
  | unfinished
deriving DecidableEq

def front (stream : Bytes) : Front :=
  match stream.split? 4 with
  | none => .unfinished
  | some (length, rest) =>
    let n := Bytes.ofBigEndian length
    if limit < n then .oversized
    else match rest.split? n with
      | none => .unfinished
      | some (body, rest) => .frame body rest

/-- Whether a stream that ends here lost part of a frame. A length alone is lost unnoticed. -/
def isCut (stream : Bytes) : Bool := stream.length ≠ 0 && stream.length ≠ 4

theorem length_rest_lt {stream body rest : Bytes} (h : front stream = .frame body rest) :
    rest.length < stream.length := by
  unfold front at h
  split at h
  · simp at h
  · rename_i length tail hs
    obtain ⟨rfl, hl⟩ := Bytes.split?_eq_some hs
    simp only at h
    split at h
    · simp at h
    · split at h
      · simp at h
      · rename_i body' rest' ht
        obtain ⟨rfl, _⟩ := Bytes.split?_eq_some ht
        simp only [Front.frame.injEq] at h
        obtain ⟨rfl, rfl⟩ := h
        simp only [List.length_append]
        omega

/-- Takes the complete frames of a stream in order: what comes of them, what is left of the stream,
and whether it was broken off at a frame that is too long or nothing comes of. -/
def each {m : Type → Type} [Monad m] {α : Type} (take : Bytes → m (Option α)) (stream : Bytes) :
    m (List α × Bytes × Bool) :=
  match h : front stream with
  | .unfinished => return ([], stream, false)
  | .oversized => return ([], [], true)
  | .frame body rest => do
    let some out ← take body | return ([], [], true)
    have := length_rest_lt h
    let (outs, left, closed) ← each take rest
    return (out :: outs, left, closed)
termination_by stream.length

section Each

variable {m : Type → Type} [Monad m] {α : Type} {take : Bytes → m (Option α)}
  {stream body rest : Bytes}

theorem each_unfinished (h : front stream = .unfinished) :
    each take stream = return ([], stream, false) := by
  rw [each]
  split <;> simp_all

theorem each_oversized (h : front stream = .oversized) :
    each take stream = return ([], [], true) := by
  rw [each]
  split <;> simp_all

theorem each_frame (h : front stream = .frame body rest) : each take stream = do
    let some out ← take body | return ([], [], true)
    let (outs, left, closed) ← each take rest
    return (out :: outs, left, closed) := by
  rw [each]
  split
  · simp_all
  · simp_all
  · rename_i hf
    obtain ⟨rfl, rfl⟩ := Front.frame.inj (hf.symm.trans h)
    rfl

end Each

/-- The contents of the complete frames at the beginning of a stream. -/
def bodies (stream : Bytes) : List Bytes :=
  match h : front stream with
  | .frame body rest =>
    have := length_rest_lt h
    body :: bodies rest
  | .oversized => []
  | .unfinished => []
termination_by stream.length

end Synod.Frame
