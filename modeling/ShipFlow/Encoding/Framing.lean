import Mathlib.Data.List.Basic

/-! Byte streams made of frames. A frame is its length, in four bytes from the highest one
down, and then its bytes. The frame of length zero ends the stream. -/

namespace Encoding

def uint32BE (n : Nat) : List UInt8 :=
  [UInt8.ofNat (n / 16777216), UInt8.ofNat (n / 65536), UInt8.ofNat (n / 256), UInt8.ofNat n]

def readUInt32BE : List UInt8 → Option (Nat × List UInt8)
  | a :: b :: c :: d :: rest =>
    some (a.toNat * 16777216 + b.toNat * 65536 + c.toNat * 256 + d.toNat, rest)
  | _ => none

/-- The receiver. It reads frames up to the empty one, and returns them with what is left. -/
def receive (bytes : List UInt8) : Option (List (List UInt8) × List UInt8) :=
  match bytes with
  | a :: b :: c :: d :: rest =>
    let n := a.toNat * 16777216 + b.toNat * 65536 + c.toNat * 256 + d.toNat
    if n = 0 then some ([], rest)
    else if rest.length < n then none
    else (receive (rest.drop n)).map fun r => (rest.take n :: r.1, r.2)
  | _ => none
termination_by bytes.length
decreasing_by simp only [List.length_drop, List.length_cons]; lia

def frame (bytes : List UInt8) : List UInt8 := uint32BE bytes.length ++ bytes

/-- A stream for the given frames. -/
def stream (frames : List (List UInt8)) : List UInt8 := frames.flatMap frame ++ uint32BE 0

@[simp] theorem stream_nil : stream [] = uint32BE 0 := rfl

@[simp] theorem stream_cons (bytes : List UInt8) (frames : List (List UInt8)) :
    stream (bytes :: frames) = frame bytes ++ stream frames := by
  simp only [stream, List.flatMap_cons, List.append_assoc]

theorem readUInt32BE_uint32BE {n : Nat} (h : n < 4294967296) (rest : List UInt8) :
    readUInt32BE (uint32BE n ++ rest) = some (n, rest) := by
  have hdigits : n / 16777216 % 256 * 16777216 + n / 65536 % 256 * 65536 + n / 256 % 256 * 256 +
      n % 256 = n := by omega
  have hbyte (k : Nat) : (UInt8.ofNat k).toNat = k % 256 := UInt8.toNat_ofNat'
  rw [uint32BE, List.cons_append, List.cons_append, List.cons_append, List.cons_append,
    List.nil_append, readUInt32BE, hbyte, hbyte, hbyte, hbyte, hdigits]

/-- One round of the receiver. -/
theorem receive_eq (bytes : List UInt8) : receive bytes =
    (readUInt32BE bytes).bind fun (n, rest) =>
      if n = 0 then some ([], rest)
      else if rest.length < n then none
      else (receive (rest.drop n)).map fun r => (rest.take n :: r.1, r.2) := by
  unfold readUInt32BE
  split
  · rw [receive, Option.bind_some]
  · next hshort =>
    rw [receive.eq_def, Option.bind_none]
    split
    · exact absurd rfl (hshort _ _ _ _ _)
    · exact Eq.refl none

theorem receive_end (rest : List UInt8) : receive (uint32BE 0 ++ rest) = some ([], rest) := by
  rw [receive_eq, readUInt32BE_uint32BE (by decide)]
  rfl

theorem receive_frame {bytes : List UInt8} (hpos : 0 < bytes.length)
    (hfits : bytes.length < 4294967296) (rest : List UInt8) :
    receive (frame bytes ++ rest) = (receive rest).map fun r => (bytes :: r.1, r.2) := by
  rw [receive_eq, frame, List.append_assoc, readUInt32BE_uint32BE hfits]
  have hne : bytes.length ≠ 0 := Nat.ne_of_gt hpos
  have hlong : ¬ (bytes ++ rest).length < bytes.length := by
    rw [List.length_append]
    lia
  simp only [Option.bind_some, if_neg hne, if_neg hlong, List.drop_left, List.take_left]

/-- The receiver gets back the frames of a stream and nothing is left, if no frame is empty
or too long for its length field. -/
theorem receive_stream {frames : List (List UInt8)}
    (h : ∀ f ∈ frames, 0 < f.length ∧ f.length < 4294967296) (rest : List UInt8) :
    receive (stream frames ++ rest) = some (frames, rest) := by
  induction frames with
  | nil => exact receive_end rest
  | cons f frames ih =>
    have hf := h f List.mem_cons_self
    have hframes := ih fun g hg => h g (List.mem_cons_of_mem f hg)
    rw [stream_cons, List.append_assoc, receive_frame hf.1 hf.2, hframes]
    rfl

theorem readUInt32BE_append {bytes rest : List UInt8} {n : Nat}
    (h : readUInt32BE bytes = some (n, rest)) (more : List UInt8) :
    readUInt32BE (bytes ++ more) = some (n, rest ++ more) := by
  unfold readUInt32BE at h
  split at h
  · simp only [Option.some.injEq, Prod.mk.injEq] at h
    obtain ⟨rfl, rfl⟩ := h
    rfl
  · cases h

/-- Bytes after the end of a stream do not change what was received. -/
theorem receive_append {bytes rest : List UInt8} {frames : List (List UInt8)}
    (h : receive bytes = some (frames, rest)) (more : List UInt8) :
    receive (bytes ++ more) = some (frames, rest ++ more) := by
  induction hlength : bytes.length using Nat.strongRecOn generalizing bytes frames with
  | ind length ih =>
    rw [receive_eq] at h ⊢
    obtain ⟨⟨n, body⟩, hread, hround⟩ := Option.bind_eq_some_iff.mp h
    rw [readUInt32BE_append hread more, Option.bind_some]
    simp only at hround ⊢
    by_cases hzero : n = 0
    · rw [if_pos hzero] at hround ⊢
      cases hround
      rfl
    · rw [if_neg hzero] at hround ⊢
      by_cases hshort : body.length < n
      · rw [if_pos hshort] at hround
        cases hround
      · have hlonger : ¬ (body ++ more).length < n := by
          rw [List.length_append]
          lia
        rw [if_neg hshort] at hround
        rw [if_neg hlonger]
        obtain ⟨⟨tail, left⟩, hrest, heq⟩ := Option.map_eq_some_iff.mp hround
        cases heq
        have hsmaller : (body.drop n).length < length := by
          have hbody : body.length < bytes.length := by
            unfold readUInt32BE at hread
            split at hread
            · cases hread
              simp only [List.length_cons]
              lia
            · cases hread
          rw [List.length_drop]
          lia
        have hle : n ≤ body.length := Nat.le_of_not_lt hshort
        rw [List.drop_append_of_le_length hle, List.take_append_of_le_length hle,
          ih _ hsmaller hrest rfl]
        rfl

/-- A stream that breaks off is not mistaken for a shorter one. -/
theorem receive_broken {bytes more : List UInt8} {frames : List (List UInt8)}
    (h : receive (bytes ++ more) = some (frames, [])) (hmore : more ≠ []) :
    receive bytes = none := by
  cases hreceive : receive bytes with
  | none => rfl
  | some r =>
    obtain ⟨frames', rest⟩ := r
    have happend := receive_append hreceive more
    rw [h] at happend
    have hleft : rest ++ more = [] := (congrArg Prod.snd (Option.some.inj happend)).symm
    exact absurd (List.append_eq_nil_iff.mp hleft).2 hmore

end Encoding
