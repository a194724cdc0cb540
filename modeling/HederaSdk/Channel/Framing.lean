import HederaSdk.Channel.UnaryResponse

/-!
# Reading the frames of a response

The loop reads the frames that a window is made of, and nothing outside of the window. What it accepts
is read off the frames.
-/

namespace HederaSdk.Channel

open Library

variable (decode : Bytes → String)

/-! ## Frames as a code -/

theorem Frame.toBytes_append_inj {frame frame' : Frame} {rest rest' : Bytes}
    (same : frame.toBytes ++ rest = frame'.toBytes ++ rest') : frame = frame' ∧ rest = rest' := by
  obtain ⟨flags, payload, short⟩ := frame
  obtain ⟨flags', payload', short'⟩ := frame'
  simp only [Frame.toBytes, List.cons_append, List.append_assoc, List.cons.injEq] at same
  obtain ⟨rfl, behind⟩ := same
  obtain ⟨lengths, texts⟩ := List.append_inj behind (by rw [BigEndian.length_encode, BigEndian.length_encode])
  have values := congrArg BigEndian.value lengths
  rw [BigEndian.value_encode_of_lt short, BigEndian.value_encode_of_lt short'] at values
  obtain ⟨rfl, rests⟩ := List.append_inj texts values
  exact ⟨rfl, rests⟩

theorem framesBytes_cons (frame : Frame) (frames : List Frame) :
    framesBytes (frame :: frames) = frame.toBytes ++ framesBytes frames := List.flatMap_cons

theorem framesBytes_injective : Function.Injective framesBytes := by
  intro frames frames' same
  induction frames generalizing frames' with
  | nil =>
      cases frames' with
      | nil => rfl
      | cons frame frames' => cases same
  | cons frame frames inductionHypothesis =>
      cases frames' with
      | nil => cases same
      | cons frame' frames' =>
          rw [framesBytes_cons, framesBytes_cons] at same
          obtain ⟨rfl, rest⟩ := Frame.toBytes_append_inj same
          rw [inductionHypothesis rest]

theorem Frame.length_toBytes (frame : Frame) : frame.toBytes.length = frame.payload.length + 5 := by
  rw [Frame.toBytes, List.length_append, List.length_cons, BigEndian.length_encode]
  omega

/-! ## The window -/

theorem take_drop_window (data : Bytes) {byteOffset byteLength offset length : Nat}
    (inside : offset + length ≤ byteLength) :
    ((dataView data byteOffset byteLength).drop offset).take length =
      (data.drop (byteOffset + offset)).take length := by
  rw [dataView, List.drop_take, List.take_take, List.drop_drop, min_eq_left (by omega)]

/-- The loop reads nothing outside of the window. -/
theorem readFrames_window (data : Bytes) (byteOffset byteLength dataOffset : Nat) (response : Response) :
    readFrames decode data byteOffset byteLength dataOffset response =
      readFrames decode (dataView data byteOffset byteLength) 0 byteLength dataOffset response := by
  induction remaining : byteLength - dataOffset using Nat.strong_induction_on generalizing dataOffset response with
  | h remaining inductionHypothesis =>
      subst remaining
      have whole : dataView (dataView data byteOffset byteLength) 0 byteLength = dataView data byteOffset byteLength := by
        rw [dataView, dataView, List.drop_zero, List.take_take, min_self]
      rw [readFrames, readFrames, whole]
      split
      · apply bind_congr
        intro frameByte
        apply bind_congr
        intro frameByteLength
        split
        · rfl
        · rw [Nat.zero_add, take_drop_window data (by omega)]
          apply bind_congr
          intro response'
          exact inductionHypothesis _ (by omega) _ _ rfl
      · rfl

/-! ## The loop -/

/-- The frames, one after the other. -/
def runFrames : List Frame → Response → Except DecodeError Bytes
  | [], response => finish response
  | frame :: frames, response => do
      let response ← readFrame decode (frame.flags.toNat >>> 7) frame.payload response
      runFrames frames response

theorem ok_bind {ε α β : Type} (a : α) (f : α → Except ε β) : (Except.ok a >>= f) = f a := rfl

theorem dataView_self (view : Bytes) : dataView view 0 view.length = view := by
  rw [dataView, List.drop_zero, List.take_length]

theorem readFrames_frame {view rest : Bytes} {dataOffset : Nat} {frame : Frame} (response : Response)
    (here : view.drop dataOffset = frame.toBytes ++ rest) :
    readFrames decode view 0 view.length dataOffset response = (do
      let response ← readFrame decode (frame.flags.toNat >>> 7) frame.payload response
      readFrames decode view 0 view.length (dataOffset + (frame.payload.length + 5)) response) := by
  have length := congrArg List.length here
  rw [List.length_drop, List.length_append, frame.length_toBytes] at length
  have behind (n : Nat) : view.drop (dataOffset + n) = (frame.toBytes ++ rest).drop n := by
    rw [← List.drop_drop, here]
  have whole := dataView_self view
  have flags : getUint8 view dataOffset = .ok frame.flags := by
    have first : view[dataOffset]? = some frame.flags := by
      rw [← List.head?_drop, here]
      rfl
    rw [getUint8, first]
  have size : getUint32 view (dataOffset + 1) = .ok frame.payload.length := by
    rw [getUint32, if_pos (by omega), behind 1]
    have bytes : ((frame.toBytes ++ rest).drop 1).take 4 = BigEndian.encode 4 frame.payload.length := by
      unfold Frame.toBytes
      rw [List.cons_append, List.cons_append, List.drop_succ_cons, List.drop_zero, List.append_assoc]
      exact List.take_left' (BigEndian.length_encode 4 _)
    rw [bytes, BigEndian.value_encode_of_lt frame.short]
  have payload : (view.drop (0 + (dataOffset + 5))).take frame.payload.length = frame.payload := by
    rw [Nat.zero_add, behind 5]
    unfold Frame.toBytes
    rw [List.cons_append, List.cons_append, List.append_assoc, List.drop_succ_cons,
      List.drop_left' (BigEndian.length_encode 4 _), List.take_left]
  rw [readFrames, if_pos (by omega), whole, flags, ok_bind, size, ok_bind, if_neg (by omega), payload]

theorem drop_frame {view rest : Bytes} {dataOffset : Nat} {frame : Frame}
    (here : view.drop dataOffset = frame.toBytes ++ rest) :
    view.drop (dataOffset + (frame.payload.length + 5)) = rest := by
  rw [← List.drop_drop, here, ← frame.length_toBytes, List.drop_left]

theorem exists_frame_of_readFrames {view message : Bytes} {dataOffset : Nat} {response : Response}
    (inside : dataOffset < view.length)
    (read : readFrames decode view 0 view.length dataOffset response = .ok message) :
    ∃ (frame : Frame) (rest : Bytes), view.drop dataOffset = frame.toBytes ++ rest := by
  have whole := dataView_self view
  have flags : getUint8 view dataOffset = .ok view[dataOffset] := by
    rw [getUint8, List.getElem?_eq_getElem inside]
  rw [readFrames, if_pos inside, whole, flags] at read
  rw [ok_bind] at read
  by_cases complete : dataOffset + 1 + 4 ≤ view.length
  · rw [getUint32, if_pos complete, ok_bind] at read
    generalize bytes : (view.drop (dataOffset + 1)).take 4 = size at read
    have four : size.length = 4 := by
      rw [← bytes, List.length_take, List.length_drop]
      omega
    by_cases fits : view.length < dataOffset + 5 + BigEndian.value size
    · rw [if_pos fits] at read
      cases read
    · have enough : BigEndian.value size ≤ (view.drop (dataOffset + 5)).length := by
        rw [List.length_drop]
        omega
      have long : ((view.drop (dataOffset + 5)).take (BigEndian.value size)).length = BigEndian.value size := by
        rw [List.length_take, min_eq_left enough]
      have small := BigEndian.value_lt size
      rw [four] at small
      refine ⟨⟨view[dataOffset], (view.drop (dataOffset + 5)).take (BigEndian.value size), ?_⟩,
        (view.drop (dataOffset + 5)).drop (BigEndian.value size), ?_⟩
      · rw [long]
        exact small
      · have encoded := BigEndian.encode_value size
        rw [four] at encoded
        have four' : view.drop (dataOffset + 1) = size ++ view.drop (dataOffset + 5) := by
          have behind : view.drop (dataOffset + 5) = (view.drop (dataOffset + 1)).drop 4 := by rw [List.drop_drop]
          rw [← bytes, behind, List.take_append_drop]
        change _ = view[dataOffset] :: BigEndian.encode 4
          ((view.drop (dataOffset + 5)).take (BigEndian.value size)).length ++
            (view.drop (dataOffset + 5)).take (BigEndian.value size) ++ _
        rw [long, encoded, List.cons_append, List.cons_append, List.append_assoc, List.take_append_drop, ← four']
        exact List.drop_eq_getElem_cons inside
  · rw [getUint32, if_neg complete] at read
    cases read

theorem readFrames_eq_ok_iff (view message : Bytes) (dataOffset : Nat) (response : Response) :
    readFrames decode view 0 view.length dataOffset response = .ok message ↔
      ∃ frames, view.drop dataOffset = framesBytes frames ∧ runFrames decode frames response = .ok message := by
  induction remaining : view.length - dataOffset using Nat.strong_induction_on generalizing dataOffset response with
  | h remaining inductionHypothesis =>
      subst remaining
      by_cases inside : dataOffset < view.length
      · constructor
        · intro read
          obtain ⟨frame, rest, here⟩ := exists_frame_of_readFrames decode inside read
          rw [readFrames_frame decode response here] at read
          cases turn : readFrame decode (frame.flags.toNat >>> 7) frame.payload response with
          | error e =>
              rw [turn] at read
              cases read
          | ok response' =>
              rw [turn] at read
              obtain ⟨frames, behind, ran⟩ := (inductionHypothesis _ (by omega) _ _ rfl).mp read
              refine ⟨frame :: frames, ?_, ?_⟩
              · rw [framesBytes_cons, ← behind, drop_frame here, here]
              · rw [runFrames, turn]
                exact ran
        · rintro ⟨frames, here, ran⟩
          cases frames with
          | nil =>
              have length := congrArg List.length here
              rw [List.length_drop] at length
              change _ = 0 at length
              omega
          | cons frame frames =>
              rw [framesBytes_cons] at here
              rw [readFrames_frame decode response here]
              rw [runFrames] at ran
              cases turn : readFrame decode (frame.flags.toNat >>> 7) frame.payload response with
              | error e =>
                  rw [turn] at ran
                  cases ran
              | ok response' =>
                  rw [turn] at ran
                  exact (inductionHypothesis _ (by omega) _ _ rfl).mpr ⟨frames, drop_frame here, ran⟩
      · have none : view.drop dataOffset = [] := List.drop_eq_nil_of_le (by omega)
        rw [readFrames, if_neg inside, none]
        constructor
        · exact fun read => ⟨[], rfl, read⟩
        · rintro ⟨frames, empty, ran⟩
          have noFrames : frames = [] := framesBytes_injective empty.symm
          rw [noFrames] at ran
          exact ran

theorem decodeUnaryResponse_eq_ok_iff (data message : Bytes) (byteOffset byteLength : Nat) :
    decodeUnaryResponse decode data byteOffset byteLength = .ok message ↔
      byteOffset + byteLength ≤ data.length ∧ ∃ frames, dataView data byteOffset byteLength = framesBytes frames ∧
        runFrames decode frames {} = .ok message := by
  rw [decodeUnaryResponse]
  by_cases inside : byteOffset + byteLength ≤ data.length
  · have length : (dataView data byteOffset byteLength).length = byteLength := by
      rw [dataView, List.length_take, List.length_drop]
      omega
    have loop := readFrames_eq_ok_iff decode (dataView data byteOffset byteLength) message 0 {}
    rw [length, List.drop_zero] at loop
    rw [if_neg (by omega), if_neg (by omega), readFrames_window, loop]
    exact (and_iff_right inside).symm
  · apply iff_of_false _ fun holds => inside holds.1
    split
    · exact fun same => by cases same
    · rw [if_pos (by omega)]
      exact fun same => by cases same

/-! ## The frames of an accepted response -/

theorem payloads_cons (frame : Frame) (frames : List Frame) :
    payloads (frame :: frames) = if frame.IsTrailer then payloads frames else frame.payload :: payloads frames := by
  unfold payloads
  by_cases trailer : frame.IsTrailer
  · rw [if_pos trailer, List.filter_cons_of_neg (by simpa using trailer)]
  · rw [if_neg trailer, List.filter_cons_of_pos (by simpa using trailer), List.map_cons]

theorem statusFirst_cons (frame : Frame) (frames : List Frame) :
    StatusFirst decode (frame :: frames) ↔
      (frame.IsTrailer → (trailerParts decode frame.payload).1 = statusName) ∧ StatusFirst decode frames :=
  List.forall_mem_cons

theorem finish_eq_ok_iff (response : Response) (message : Bytes) :
    finish response = .ok message ↔ response.status = some 0 ∧ response.unaryResponse = some message := by
  unfold finish
  by_cases success : response.status = some 0
  · rw [if_neg (not_not.mpr success)]
    cases response.unaryResponse with
    | none => simp
    | some unaryResponse => simp [success]
  · rw [if_pos success]
    exact iff_of_false (fun same => by cases same) fun holds => success holds.1

theorem runFrames_eq_ok_iff (frames : List Frame) (response : Response) (message : Bytes) :
    runFrames decode frames response = .ok message ↔ StatusFirst decode frames ∧
      response.unaryResponse.toList ++ payloads frames = [message] ∧
        frames.foldl (fun status frame =>
          if frame.IsTrailer then trailerStatus decode frame.payload else status) response.status = some 0 := by
  induction frames generalizing response with
  | nil =>
      have one : response.unaryResponse.toList ++ payloads [] = [message] ↔
          response.unaryResponse = some message := by
        cases response.unaryResponse <;> simp [payloads]
      have first : StatusFirst decode [] := fun frame member => absurd member List.not_mem_nil
      rw [runFrames, finish_eq_ok_iff, one, and_comm]
      exact (and_iff_right first).symm
  | cons frame frames inductionHypothesis =>
      rw [runFrames, payloads_cons, statusFirst_cons, List.foldl_cons, readFrame]
      by_cases trailer : frame.IsTrailer
      · have type : frame.flags.toNat >>> 7 = 1 := trailer
        rw [if_neg (by omega), if_pos type, if_pos trailer, if_pos trailer]
        by_cases first : (trailerParts decode frame.payload).1 = statusName
        · rw [if_pos first, ok_bind, inductionHypothesis]
          simp only [first, implies_true, true_and]
        · rw [if_neg first]
          exact iff_of_false (fun same => by cases same) fun holds => first (holds.1.1 trailer)
      · have type : frame.flags.toNat >>> 7 = 0 := by
          have small := frame.flags.toNat_lt
          have bit : frame.flags.toNat >>> 7 = frame.flags.toNat / 128 := Nat.shiftRight_eq_div_pow _ 7
          have other : ¬ frame.flags.toNat >>> 7 = 1 := trailer
          omega
        rw [if_pos type, if_neg trailer, if_neg trailer]
        cases before : response.unaryResponse with
        | none =>
            rw [ok_bind, inductionHypothesis]
            simp [trailer]
        | some unaryResponse =>
            exact iff_of_false (fun same => by cases same) fun holds => by
              have lengths := congrArg List.length holds.2.1
              simp at lengths

end HederaSdk.Channel
