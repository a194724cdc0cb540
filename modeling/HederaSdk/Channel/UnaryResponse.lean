import HederaSdk.Js.ParseInt
import HederaSdk.Js.Json
import HederaSdk.Library.BigEndian
import HederaSdk.Library.Split

/-!
# Responses of a web channel

A response is frames of data and of trailers, one behind the other: a byte of flags, four bytes of
length, and so many bytes. Bit 7 of the flags makes a trailer.
-/

namespace HederaSdk.Channel

open Library

/-- What the reader throws. -/
inductive DecodeError where
  | rangeError (message : String)
  | error (message : String)
  deriving DecidableEq

def outOfBounds : DecodeError := .rangeError "Offset is outside the bounds of the DataView"

/-! ## Writing and reading -/

def encodeRequest (data : Bytes) : Bytes := 0 :: BigEndian.encode 4 data.length ++ data

def getUint8 (view : Bytes) (offset : Nat) : Except DecodeError UInt8 :=
  match view[offset]? with
  | some b => .ok b
  | none => .error outOfBounds

def getUint32 (view : Bytes) (offset : Nat) : Except DecodeError Nat :=
  if offset + 4 ≤ view.length then .ok (BigEndian.value ((view.drop offset).take 4)) else .error outOfBounds

/-- What was read so far: the data, and the status of the last trailer, where `none` is `NaN`. -/
structure Response where
  unaryResponse : Option Bytes := none
  status : Option Int := some 0

section

variable (decode : Bytes → String)

/-- The name that a trailer starts with, and the value behind it. -/
def trailerParts (frameData : Bytes) : List Char × Option (List Char) :=
  Split.firstTwo [':'] (decode frameData).toList

/-- `parseInt(trailerValue)`; what is missing reads as "undefined". -/
def trailerStatus (frameData : Bytes) : Option Int :=
  parseInt none ((trailerParts decode frameData).2.getD "undefined".toList)

def statusName : List Char := "grpc-status".toList

def readFrame (frameType : Nat) (frameData : Bytes) (response : Response) : Except DecodeError Response :=
  if frameType = 0 then
    match response.unaryResponse with
    | some _ => .error (.error "(BUG) unexpectedly received more than one data frame")
    | none => .ok { response with unaryResponse := some frameData }
  else if frameType = 1 then
    if (trailerParts decode frameData).1 = statusName then
      .ok { response with status := trailerStatus decode frameData }
    else .error (.error s!"(BUG) unhandled trailer, {decode frameData}")
  else .error (.error s!"(BUG) unexpected frame type: {frameType}")

def finish (response : Response) : Except DecodeError Bytes :=
  if response.status ≠ some 0 then
    .error (.error ("(BUG) unhandled grpc-status: " ++ (response.status.map toString).getD "NaN"))
  else
    match response.unaryResponse with
    | none => .error (.error "(BUG) unexpectedly received no response")
    | some unaryResponse => .ok unaryResponse

/-- The window of a buffer. -/
def dataView (data : Bytes) (byteOffset byteLength : Nat) : Bytes := (data.drop byteOffset).take byteLength

/-- The loop over the frames of a window of `data`. -/
def readFrames (data : Bytes) (byteOffset byteLength dataOffset : Nat) (response : Response) :
    Except DecodeError Bytes :=
  if dataOffset < byteLength then do
    let frameByte ← getUint8 (dataView data byteOffset byteLength) dataOffset
    let frameByteLength ← getUint32 (dataView data byteOffset byteLength) (dataOffset + 1)
    if byteLength < dataOffset + 5 + frameByteLength then
      .error (.error "(BUG) unexpected frame length past the boundary")
    else do
      let response ← readFrame decode (frameByte.toNat >>> 7)
        ((data.drop (byteOffset + (dataOffset + 5))).take frameByteLength) response
      readFrames data byteOffset byteLength (dataOffset + (frameByteLength + 5)) response
  else finish response
termination_by byteLength - dataOffset

def decodeUnaryResponse (data : Bytes) (byteOffset byteLength : Nat) : Except DecodeError Bytes :=
  if data.length < byteOffset then
    .error (.rangeError s!"Start offset {byteOffset} is outside the bounds of the buffer")
  else if data.length < byteOffset + byteLength then
    .error (.rangeError s!"Invalid DataView length {byteLength}")
  else readFrames decode data byteOffset byteLength 0 {}

end

/-! ## Frames -/

structure Frame where
  flags : UInt8
  payload : Bytes
  short : payload.length < 2 ^ 32

namespace Frame

def toBytes (frame : Frame) : Bytes := frame.flags :: BigEndian.encode 4 frame.payload.length ++ frame.payload

def IsTrailer (frame : Frame) : Prop := frame.flags.toNat >>> 7 = 1

instance instDecidableIsTrailer (frame : Frame) : Decidable frame.IsTrailer := inferInstanceAs (Decidable (_ = _))

/-- The lowest bit of the flags of a data frame. -/
def IsCompressed (frame : Frame) : Prop := frame.flags.toNat % 2 = 1

instance instDecidableIsCompressed (frame : Frame) : Decidable frame.IsCompressed :=
  inferInstanceAs (Decidable (_ = _))

end Frame

def framesBytes (frames : List Frame) : Bytes := frames.flatMap Frame.toBytes

def payloads (frames : List Frame) : List Bytes := (frames.filter fun frame => ¬ frame.IsTrailer).map Frame.payload

/-! ## What is expected -/

def trim (text : List Char) : List Char :=
  ((text.dropWhile isJsWhitespace).reverse.dropWhile isJsWhitespace).reverse

/-- The lines of a text, whose last one may be ended too. -/
def trailerLines (text : List Char) : List (List Char) :=
  let lines := text.splitOn '\n'
  if lines.getLast? = some [] then lines.dropLast else lines

/-- A block of lines `name:value`, of which none has another status than 0. -/
structure Succeeds (text : List Char) : Prop where
  fields : ∀ line ∈ trailerLines text, ∃ name value, line = name ++ ':' :: value ∧ name ≠ [] ∧ ':' ∉ name
  status : ∀ line ∈ trailerLines text, ∀ value, line = statusName ++ ':' :: value → trim value = ['0']

/-- The data is not compressed, and every trailer reports success. -/
structure Acceptable (decode : Bytes → String) (frames : List Frame) : Prop where
  plain : ∀ frame ∈ frames, ¬ frame.IsTrailer → ¬ frame.IsCompressed
  trailers : ∀ frame ∈ frames, frame.IsTrailer → Succeeds (decode frame.payload).toList

/-- The window is complete frames, with one frame of data. -/
def IsResponse (decode : Bytes → String) (window message : Bytes) : Prop :=
  ∃ frames, window = framesBytes frames ∧ payloads frames = [message] ∧ Acceptable decode frames

/-! ## What the reader looks at -/

/-- The status of the last trailer. -/
def lastStatus (decode : Bytes → String) (frames : List Frame) : Option Int :=
  frames.foldl (fun status frame => if frame.IsTrailer then trailerStatus decode frame.payload else status) (some 0)

/-- Every trailer starts with the status. -/
def StatusFirst (decode : Bytes → String) (frames : List Frame) : Prop :=
  ∀ frame ∈ frames, frame.IsTrailer → (trailerParts decode frame.payload).1 = statusName

/-- In a response of complete frames with one of data, every trailer of an acceptable response starts
with its status, and a response whose trailers all do and whose last status is 0 is acceptable. -/
structure Handled (decode : Bytes → String) (window : Bytes) : Prop where
  first : ∀ frames, window = framesBytes frames → (payloads frames).length = 1 → Acceptable decode frames →
    StatusFirst decode frames
  rest : ∀ frames, window = framesBytes frames → (payloads frames).length = 1 → StatusFirst decode frames →
    lastStatus decode frames = some 0 → Acceptable decode frames

end HederaSdk.Channel
