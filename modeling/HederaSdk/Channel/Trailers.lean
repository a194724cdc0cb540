import HederaSdk.Channel.Framing
import Mathlib.Data.List.TakeWhile

/-!
# When a response is read as expected

The reader looks at the first two parts of a trailer between colons. On a block of lines that starts
with its status, the second part starts with the status, so it is read.
-/

namespace HederaSdk.Channel

open Library

/-! ## Lines -/

/-- The first line of a text is one of its lines. -/
theorem mem_trailerLines {line more : List Char} (nonempty : line ≠ []) (whole : '\n' ∉ line)
    (ended : more = [] ∨ ∃ rest, more = '\n' :: rest) : line ∈ trailerLines (line ++ more) := by
  unfold trailerLines
  rcases ended with rfl | ⟨rest, rfl⟩
  · rw [List.append_nil, List.splitOn_eq_singleton whole]
    have kept : ¬ [line].getLast? = some [] := by simpa using nonempty
    rw [if_neg kept]
    exact List.mem_singleton_self line
  · rw [List.splitOn_append_cons_self_of_not_mem whole]
    simp only
    split
    · rw [List.dropLast_cons_of_ne_nil (List.splitOn_ne_nil _ _)]
      exact List.mem_cons_self
    · exact List.mem_cons_self

/-- A trimmed text stands between white space. -/
theorem eq_of_trim {text : List Char} {c : Char} (trimmed : trim text = [c]) :
    ∃ before behind : List Char, text = before ++ c :: behind ∧ (∀ d ∈ before, isJsWhitespace d = true) ∧
      ∀ d ∈ behind, isJsWhitespace d = true := by
  have reversed := congrArg List.reverse trimmed
  rw [trim, List.reverse_reverse, List.reverse_singleton] at reversed
  have inner := List.takeWhile_append_dropWhile (p := isJsWhitespace) (l := (text.dropWhile isJsWhitespace).reverse)
  rw [reversed] at inner
  have outer := List.takeWhile_append_dropWhile (p := isJsWhitespace) (l := text)
  have middle := congrArg List.reverse inner
  rw [List.reverse_reverse, List.reverse_append] at middle
  refine ⟨text.takeWhile isJsWhitespace, ((text.dropWhile isJsWhitespace).reverse.takeWhile isJsWhitespace).reverse,
    ?_, fun d => List.mem_takeWhile_imp, fun d member => List.mem_takeWhile_imp (List.mem_reverse.mp member)⟩
  calc text = text.takeWhile isJsWhitespace ++ text.dropWhile isJsWhitespace := outer.symm
    _ = text.takeWhile isJsWhitespace ++ ([c].reverse ++
          ((text.dropWhile isJsWhitespace).reverse.takeWhile isJsWhitespace).reverse) := by rw [middle]

/-! ## The status -/

theorem not_digit_of_whitespace {c : Char} (white : isJsWhitespace c = true) :
    digitValue 10 c = none ∧ c ≠ 'x' ∧ c ≠ 'X' ∧ c ≠ ':' := by
  rcases Bool.or_eq_true_iff.mp white with listed | high
  · have member := of_decide_eq_true listed
    simp only [List.mem_cons, List.not_mem_nil, or_false] at member
    rcases member with rfl | rfl | rfl | rfl | rfl | rfl | rfl | rfl | rfl | rfl | rfl | rfl | rfl | rfl <;> decide
  · have above : 8192 ≤ c.toNat := of_decide_eq_true (Bool.and_eq_true_iff.mp high).1
    have beyond {d : Char} (small : d.toNat < 8192) : ¬ c ≤ d := by
      intro below
      have order : c.toNat ≤ d.toNat := below
      omega
    have other {d : Char} (small : d.toNat < 8192) : c ≠ d := fun same => beyond small (same ▸ Nat.le_refl _)
    refine ⟨?_, other (by decide), other (by decide), other (by decide)⟩
    rw [digitValue, hexValue, if_neg fun range => beyond (by decide) range.2,
      if_neg fun range => beyond (by decide) range.2, if_neg fun range => beyond (by decide) range.2]
    rfl

/-- A zero between white space is read as 0. -/
theorem parseInt_zero {before behind : List Char} (white : ∀ c ∈ before, isJsWhitespace c = true)
    (ended : ∀ c ∈ behind.head?, isJsWhitespace c = true) : parseInt none (before ++ '0' :: behind) = some 0 := by
  have trimmed : (before ++ '0' :: behind).dropWhile isJsWhitespace = '0' :: behind := by
    rw [List.dropWhile_append_of_pos white]
    rfl
  rw [parseInt, trimmed]
  cases behind with
  | nil => rfl
  | cons c behind =>
      obtain ⟨digit, lower, upper, -⟩ := not_digit_of_whitespace (ended c rfl)
      have unprefixed : hexPrefix 10 ('0' :: c :: behind) = (10, '0' :: c :: behind) := by
        unfold hexPrefix
        split
        · rename_i shape
          exact absurd (List.cons.inj (List.cons.inj shape).2).1 lower
        · rename_i shape
          exact absurd (List.cons.inj (List.cons.inj shape).2).1 upper
        · rfl
      have digits : ('0' :: c :: behind).takeWhile (fun c => (digitValue 10 c).isSome) = ['0'] := by
        rw [List.takeWhile_cons_of_pos rfl, List.takeWhile_cons_of_neg (by rw [digit]; exact Bool.false_ne_true)]
      have number : leadingNumber 10 ('0' :: c :: behind) = some 0 := by
        rw [leadingNumber, digits]
        rfl
      have unsigned : unsignedNumber none ('0' :: c :: behind) = some 0 := by
        rw [unsignedNumber, if_pos (.inl rfl), Option.getD_none, unprefixed, number]
      change (unsignedNumber none ('0' :: c :: behind)).map _ = _
      rw [unsigned]
      rfl

/-- The second part of a text behind the name. -/
theorem firstTwo_takeWhile {name tail : List Char} (free : ':' ∉ name) :
    Split.firstTwo [':'] (name ++ ':' :: tail) = (name, some (tail.takeWhile (· ≠ ':'))) := by
  by_cases member : ':' ∈ tail
  · obtain ⟨second, rest, rfl, free'⟩ := List.eq_append_cons_of_mem member
    have parts := @Split.breakOn_append Char _ ':' [] name free (second ++ ':' :: rest)
    have parts' := @Split.breakOn_append Char _ ':' [] second free' rest
    have front : (second ++ ':' :: rest).takeWhile (· ≠ ':') = second := by
      rw [List.takeWhile_append_of_pos fun c member => decide_eq_true (ne_of_mem_of_not_mem member free')]
      exact List.append_nil second
    rw [List.singleton_append] at parts parts'
    rw [Split.firstTwo, parts, front]
    simp only [parts']
  · have same : tail.takeWhile (· ≠ ':') = tail :=
      List.takeWhile_eq_self_iff.mpr fun c inside => decide_eq_true (ne_of_mem_of_not_mem inside member)
    rw [same]
    exact Split.firstTwo_cons free member

variable {decode : Bytes → String}

/-- A block that starts with its status is read as a success. -/
theorem trailerStatus_of_succeeds {payload : Bytes} (succeeds : Succeeds (decode payload).toList)
    (first : (trailerParts decode payload).1 = statusName) : trailerStatus decode payload = some 0 := by
  unfold trailerStatus trailerParts at *
  generalize (decode payload).toList = text at succeeds first
  by_cases colon : ':' ∈ text
  · obtain ⟨name, tail, rfl, free⟩ := List.eq_append_cons_of_mem colon
    rw [firstTwo_takeWhile free] at first ⊢
    have same : name = statusName := first
    subst same
    obtain ⟨value, more, rfl, whole, ended⟩ : ∃ value more : List Char, tail = value ++ more ∧ '\n' ∉ value ∧
        (more = [] ∨ ∃ rest, more = '\n' :: rest) := by
      by_cases newline : '\n' ∈ tail
      · obtain ⟨value, rest, rfl, free'⟩ := List.eq_append_cons_of_mem newline
        exact ⟨value, '\n' :: rest, rfl, free', .inr ⟨rest, rfl⟩⟩
      · exact ⟨tail, [], (List.append_nil tail).symm, newline, .inl rfl⟩
    have line : statusName ++ ':' :: value ∈ trailerLines (statusName ++ ':' :: (value ++ more)) := by
      have member := @mem_trailerLines (statusName ++ ':' :: value) more (by simp) (by
        rw [List.mem_append, List.mem_cons]
        rintro (inName | same | inValue)
        · exact absurd inName (by decide)
        · cases same
        · exact whole inValue) ended
      rw [List.append_assoc] at member
      exact member
    obtain ⟨before, behind, rfl, white, white'⟩ := eq_of_trim (succeeds.status _ line value rfl)
    have blank : ∀ c ∈ before, decide (c ≠ ':') = true := fun c member =>
      decide_eq_true (not_digit_of_whitespace (white c member)).2.2.2
    have value' : (before ++ '0' :: behind ++ more).takeWhile (· ≠ ':') =
        before ++ '0' :: (behind ++ more).takeWhile (· ≠ ':') := by
      rw [List.append_assoc, List.takeWhile_append_of_pos blank, List.cons_append,
        List.takeWhile_cons_of_pos (by decide)]
    rw [Option.getD_some, value']
    apply parseInt_zero white
    intro c member
    have inside : c ∈ (behind ++ more).head? := by
      cases rest : behind ++ more with
      | nil =>
          rw [rest] at member
          cases member
      | cons d rest' =>
          rw [rest] at member
          by_cases colon : d = ':'
          · subst colon
            cases member
          · have kept : decide (d ≠ ':') = true := decide_eq_true colon
            rw [List.takeWhile_cons_of_pos (p := fun x => decide (x ≠ ':')) kept] at member
            exact member
    cases behind with
    | nil =>
        rcases ended with rfl | ⟨rest, rfl⟩
        · cases inside
        · cases inside
          rfl
    | cons d behind =>
        cases inside
        exact white' _ List.mem_cons_self
  · have only : Split.firstTwo [':'] text = (text, none) := by
      rw [Split.firstTwo, Split.breakOn_of_notMem colon]
    rw [only] at first
    have same : text = statusName := first
    subst same
    obtain ⟨name, value, shape, -⟩ := succeeds.fields statusName
      (by simpa using @mem_trailerLines statusName [] (by decide) (by decide) (.inl rfl))
    have member : ':' ∈ statusName := by
      rw [shape]
      exact List.mem_append_right _ List.mem_cons_self
    exact absurd member (by decide)

theorem lastStatus_of_acceptable {frames : List Frame} (acceptable : Acceptable decode frames)
    (first : StatusFirst decode frames) : lastStatus decode frames = some 0 := by
  have zero : ∀ frame ∈ frames, frame.IsTrailer → trailerStatus decode frame.payload = some 0 :=
    fun frame member trailer =>
      trailerStatus_of_succeeds (acceptable.trailers frame member trailer) (first frame member trailer)
  unfold lastStatus
  clear acceptable first
  induction frames with
  | nil => rfl
  | cons frame frames inductionHypothesis =>
      have rest := inductionHypothesis fun frame' member => zero frame' (List.mem_cons_of_mem _ member)
      rw [List.foldl_cons]
      by_cases trailer : frame.IsTrailer
      · rw [if_pos trailer, zero frame List.mem_cons_self trailer]
        exact rest
      · rw [if_neg trailer]
        exact rest

/-! ## Responses -/

theorem decode_framesBytes_iff (frames : List Frame) (message : Bytes) :
    (∃ frames', framesBytes frames = framesBytes frames' ∧ runFrames decode frames' {} = .ok message) ↔
      StatusFirst decode frames ∧ payloads frames = [message] ∧ lastStatus decode frames = some 0 := by
  have ran := runFrames_eq_ok_iff decode frames {} message
  constructor
  · rintro ⟨frames', same, run⟩
    rw [← framesBytes_injective same, ran] at run
    exact run
  · intro holds
    exact ⟨frames, rfl, ran.mpr holds⟩

theorem isResponse_framesBytes_iff (frames : List Frame) (message : Bytes) :
    IsResponse decode (framesBytes frames) message ↔ payloads frames = [message] ∧ Acceptable decode frames := by
  constructor
  · rintro ⟨frames', same, holds⟩
    rw [framesBytes_injective same]
    exact holds
  · intro holds
    exact ⟨frames, rfl, holds⟩

theorem Frame.not_isTrailer {frame : Frame} (data : frame.flags = 0) : ¬ frame.IsTrailer := by
  rw [Frame.IsTrailer, data]
  decide

theorem decode_encodeRequest {message : Bytes} (short : message.length < 2 ^ 32) :
    decodeUnaryResponse decode (encodeRequest message) 0 (encodeRequest message).length = .ok message := by
  have one : encodeRequest message = framesBytes [⟨0, message, short⟩] := (List.append_nil _).symm
  rw [decodeUnaryResponse_eq_ok_iff, dataView_self, one, decode_framesBytes_iff, ← one, Nat.zero_add]
  have data : ¬ Frame.IsTrailer ⟨0, message, short⟩ := Frame.not_isTrailer rfl
  refine ⟨le_rfl, ?_, ?_, ?_⟩
  · intro frame member trailer
    cases List.mem_singleton.mp member
    exact absurd trailer data
  · rw [payloads_cons, if_neg data]
    rfl
  · rw [lastStatus, List.foldl_cons, if_neg data]
    rfl

/-- The reader stays in its window, reads what a request was written from, and reads a window as expected
exactly when trailers start with their status and nothing behind the statuses it looks at is wrong. -/
theorem decodeUnaryResponse_iff (decode : Bytes → String) :
    (∀ (data : Bytes) (byteOffset byteLength : Nat), byteOffset + byteLength ≤ data.length →
      decodeUnaryResponse decode data byteOffset byteLength =
        decodeUnaryResponse decode (dataView data byteOffset byteLength) 0 byteLength) ∧
    (∀ message : Bytes, message.length < 2 ^ 32 →
      decodeUnaryResponse decode (encodeRequest message) 0 (encodeRequest message).length = .ok message) ∧
    ∀ (data : Bytes) (byteOffset byteLength : Nat),
      (∀ message, decodeUnaryResponse decode data byteOffset byteLength = .ok message ↔
        byteOffset + byteLength ≤ data.length ∧ IsResponse decode (dataView data byteOffset byteLength) message) ↔
      (byteOffset + byteLength ≤ data.length → Handled decode (dataView data byteOffset byteLength)) := by
  refine ⟨?_, fun _ => decode_encodeRequest, ?_⟩
  · intro data byteOffset byteLength inside
    have length : (dataView data byteOffset byteLength).length = byteLength := by
      rw [dataView, List.length_take, List.length_drop]
      omega
    unfold decodeUnaryResponse
    rw [if_neg (by omega), if_neg (by omega), if_neg (by omega), if_neg (by omega), readFrames_window]
  · intro data byteOffset byteLength
    simp only [decodeUnaryResponse_eq_ok_iff]
    constructor
    · intro meets inside
      constructor
      · intro frames shape one acceptable
        obtain ⟨message, single⟩ := List.length_eq_one_iff.mp one
        have read := (meets message).mpr ⟨inside, frames, shape, single, acceptable⟩
        rw [shape, decode_framesBytes_iff] at read
        exact read.2.1
      · intro frames shape one first last
        obtain ⟨message, single⟩ := List.length_eq_one_iff.mp one
        have read := (meets message).mp ⟨inside, by rw [shape, decode_framesBytes_iff]; exact ⟨first, single, last⟩⟩
        rw [shape, isResponse_framesBytes_iff] at read
        exact read.2.2
    · intro handled message
      apply and_congr_right
      intro inside
      constructor
      · rintro ⟨frames, shape, ran⟩
        obtain ⟨first, single, last⟩ := (decode_framesBytes_iff frames message).mp ⟨frames, rfl, ran⟩
        exact ⟨frames, shape, single,
          (handled inside).rest frames shape (by rw [single]; rfl) first last⟩
      · rintro ⟨frames, shape, single, acceptable⟩
        have first := (handled inside).first frames shape (by rw [single]; rfl) acceptable
        rw [shape, decode_framesBytes_iff]
        exact ⟨first, single, lastStatus_of_acceptable acceptable first⟩

theorem request_comes_back :
    decodeUnaryResponse utf8Decode (encodeRequest [1, 2, 3]) 0 8 = .ok [1, 2, 3] :=
  (decodeUnaryResponse_iff utf8Decode).2.1 [1, 2, 3] (by decide)

section Samples

/-- A message in front of the status. -/
def messageFirst : String := "grpc-message:OK\r\ngrpc-status:0\r\n"

def messageFirstFrames : List Frame :=
  [⟨0, [7], by decide⟩, ⟨128, utf8Encode messageFirst, by decide⟩]

theorem messageFirst_lines :
    trailerLines messageFirst.toList = ["grpc-message:OK\r".toList, "grpc-status:0\r".toList] := by
  decide

theorem messageFirst_succeeds : Succeeds messageFirst.toList := by
  constructor
  · intro line member
    rw [messageFirst_lines, List.mem_cons, List.mem_singleton] at member
    rcases member with rfl | rfl
    · exact ⟨"grpc-message".toList, "OK\r".toList, by decide, by decide, by decide⟩
    · exact ⟨statusName, "0\r".toList, by decide, by decide, by decide⟩
  · intro line member value shape
    rw [messageFirst_lines, List.mem_cons, List.mem_singleton] at member
    rcases member with rfl | rfl
    · cases shape
    · have own : "grpc-status:0\r".toList = statusName ++ ':' :: "0\r".toList := by decide
      obtain ⟨-, rfl⟩ := List.cons.inj (List.append_cancel_left (own.symm.trans shape))
      decide

/-- A response whose trailer starts with a message is refused. -/
theorem message_first_refused :
    ¬ ∀ message : Bytes,
      decodeUnaryResponse utf8Decode (framesBytes messageFirstFrames) 0 (framesBytes messageFirstFrames).length =
          .ok message ↔ IsResponse utf8Decode (framesBytes messageFirstFrames) message := by
  intro meets
  have text := utf8Decode_utf8Encode messageFirst
  have response : IsResponse utf8Decode (framesBytes messageFirstFrames) [7] := by
    refine ⟨messageFirstFrames, rfl, rfl, ?_, ?_⟩
    · intro frame member
      rcases List.mem_pair.mp member with rfl | rfl
      · exact fun _ => by decide
      · exact fun data => absurd (by decide) data
    · intro frame member
      rcases List.mem_pair.mp member with rfl | rfl
      · exact fun trailer => absurd trailer (by decide)
      · intro _
        rw [text]
        exact messageFirst_succeeds
  have read := (meets [7]).mpr response
  rw [decodeUnaryResponse_eq_ok_iff, dataView_self, decode_framesBytes_iff] at read
  have first := read.2.1 _ (List.mem_pair.mpr (.inr rfl)) (by decide)
  rw [trailerParts, text] at first
  exact absurd first (by decide)

end Samples

end HederaSdk.Channel
