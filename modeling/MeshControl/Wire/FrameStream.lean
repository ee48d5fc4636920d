import MeshControl.Bytes.BigEndian
/-!
A stream of frames as bytes: each body stands behind the two bytes of its length, an empty body
too, and the stream may break off inside a frame. Main statements: `joined_bodies` says that
cutting a stream into frames loses nothing, `cut_joined_append` that frames are cut where they were
joined, and `front?_rest` that what is left holds no whole frame.
-/

namespace MeshControl

/-- A stream of frames: the bodies of the whole frames, and the bytes that are left. -/
structure FrameStream where
  bodies : List Bytes := []
  rest : Bytes := []
deriving DecidableEq, Repr

namespace FrameStream

/-- A body behind its length. -/
def frame (body : Bytes) : Bytes := BigEndian.digits 2 body.length ++ body

/-- The frames of bodies, one behind the other. -/
def joined : List Bytes → Bytes
  | [] => []
  | body :: bodies => frame body ++ joined bodies

/-- The first `length` bytes and the bytes behind them, if there are as many. -/
def splitOff? (length : Nat) (bytes : Bytes) : Option (Bytes × Bytes) :=
  if length ≤ bytes.length then some (bytes.take length, bytes.drop length) else none

/-- The body of the frame at the front, if it is whole, and the bytes behind it. -/
def front? : Bytes → Option (Bytes × Bytes)
  | high :: low :: bytes => splitOff? (BigEndian.value [high, low]) bytes
  | _ => none

theorem of_splitOff? {length : Nat} {bytes front back : Bytes}
    (h : splitOff? length bytes = some (front, back)) :
    front.length = length ∧ bytes = front ++ back := by
  unfold splitOff? at h
  split at h
  · simp only [Option.some.injEq, Prod.mk.injEq] at h
    obtain ⟨rfl, rfl⟩ := h
    refine ⟨?_, (List.take_append_drop _ _).symm⟩
    rw [List.length_take]
    omega
  · simp at h

theorem splitOff?_append (front back : Bytes) :
    splitOff? front.length (front ++ back) = some (front, back) := by
  simp [splitOff?]

/-- The frame at the front is its body behind its length. -/
theorem eq_frame_append {bytes body rest : Bytes} (h : front? bytes = some (body, rest)) :
    bytes = frame body ++ rest := by
  unfold front? at h
  split at h
  · rename_i high low bytes
    obtain ⟨hlength, rfl⟩ := of_splitOff? h
    have hdigits : BigEndian.digits 2 (BigEndian.value [high, low]) = [high, low] :=
      BigEndian.digits_value [high, low]
    simp [frame, hlength, hdigits]
  · simp at h

/-- A frame at the front is found, whatever follows. -/
theorem front?_frame_append {body rest : Bytes} (hlength : body.length < BigEndian.span 2) :
    front? (frame body ++ rest) = some (body, rest) := by
  have hvalue := BigEndian.value_digits hlength
  have hdigits : BigEndian.digits 2 body.length =
      [UInt8.ofNat (body.length / 256), UInt8.ofNat body.length] := rfl
  rw [hdigits] at hvalue
  simp only [frame, hdigits, List.cons_append, List.nil_append, front?, hvalue]
  exact splitOff?_append body rest

theorem length_front {bytes body rest : Bytes} (h : front? bytes = some (body, rest)) :
    rest.length < bytes.length := by
  rw [eq_frame_append h]
  simp only [frame, List.length_append, BigEndian.length_digits]
  omega

/-- Cuts bytes into frames. -/
def cut (bytes : Bytes) : FrameStream :=
  match h : front? bytes with
  | none => { rest := bytes }
  | some (body, rest) =>
    have := length_front h
    let stream := cut rest
    { stream with bodies := body :: stream.bodies }
termination_by bytes.length

theorem cut_of_none {bytes : Bytes} (h : front? bytes = none) : cut bytes = ⟨[], bytes⟩ := by
  rw [cut]
  split
  · rfl
  · simp_all

theorem cut_of_some {bytes body rest : Bytes} (h : front? bytes = some (body, rest)) :
    cut bytes = ⟨body :: (cut rest).bodies, (cut rest).rest⟩ := by
  rw [cut]
  split
  · simp_all
  · rename_i found left hfound
    rw [h] at hfound
    simp only [Option.some.injEq, Prod.mk.injEq] at hfound
    obtain ⟨rfl, rfl⟩ := hfound
    rfl

/-- Cutting loses nothing. -/
theorem joined_bodies (bytes : Bytes) : joined (cut bytes).bodies ++ (cut bytes).rest = bytes := by
  fun_induction cut bytes with
  | case1 bytes h => rfl
  | case2 bytes body rest h _ _ ih =>
    simp only [joined, List.append_assoc]
    rw [ih]
    exact (eq_frame_append h).symm

/-- What is left holds no whole frame. -/
theorem front?_rest (bytes : Bytes) : front? (cut bytes).rest = none := by
  fun_induction cut bytes with
  | case1 bytes h => exact h
  | case2 bytes body rest h _ _ ih => exact ih

/-- Frames are cut where they were joined. -/
theorem cut_joined_append {bodies : List Bytes} {rest : Bytes}
    (hlength : ∀ body ∈ bodies, body.length < BigEndian.span 2) (hrest : front? rest = none) :
    cut (joined bodies ++ rest) = ⟨bodies, rest⟩ := by
  induction bodies with
  | nil => exact cut_of_none hrest
  | cons body bodies ih =>
    have htail := ih fun other hother => hlength other (List.mem_cons_of_mem _ hother)
    simp only [joined, List.append_assoc]
    rw [cut_of_some (front?_frame_append (hlength body (List.mem_cons_self ..))), htail]

/-- A length word cannot tell more than it has room for. -/
theorem length_lt_of_front? {bytes body rest : Bytes} (h : front? bytes = some (body, rest)) :
    body.length < BigEndian.span 2 := by
  unfold front? at h
  split at h
  · rename_i high low bytes
    rw [(of_splitOff? h).1]
    exact BigEndian.value_lt [high, low]
  · simp at h

theorem front?_frame {body : Bytes} (hlength : body.length < BigEndian.span 2) :
    front? (frame body) = some (body, []) := by
  rw [← front?_frame_append hlength, List.append_nil]

/-- The beginning of a frame is the whole of it, or it holds no whole frame. -/
theorem cut_of_frame_eq_append {body taken left : Bytes} (hlength : body.length < BigEndian.span 2)
    (h : frame body = taken ++ left) :
    (taken = frame body ∧ left = [] ∧ cut taken = ⟨[body], []⟩) ∨
      (left ≠ [] ∧ cut taken = ⟨[], taken⟩) := by
  rcases left with _ | ⟨byte, left⟩
  · rw [List.append_nil] at h
    refine .inl ⟨h.symm, rfl, ?_⟩
    rw [← h, cut_of_some (front?_frame hlength), cut_of_none rfl]
  · refine .inr ⟨List.cons_ne_nil _ _, cut_of_none ?_⟩
    cases hfront : front? taken with
    | none => rfl
    | some found =>
      obtain ⟨first, rest⟩ := found
      have hwhole := front?_frame hlength
      rw [h, eq_frame_append hfront, List.append_assoc,
        front?_frame_append (length_lt_of_front? hfront)] at hwhole
      simp at hwhole

end FrameStream

end MeshControl
