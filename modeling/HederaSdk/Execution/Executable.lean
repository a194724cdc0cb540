import HederaSdk.Client
import HederaSdk.Execution.Status
import HederaSdk.Transaction.List

/-!
# Requests

What a transaction and a query have in common, and how the failure of a call is
judged.
-/

namespace HederaSdk

inductive ExecutionState where
  | finished
  | retry
  | error
  deriving DecidableEq

structure Executable where
  maxAttempts : Nat := 10
  nodeAccountIds : SdkList AccountId := {}
  /-- The nodes of the client, known once a transaction or a paid query is executed. -/
  transactionNodeIds : List String := []
  signOnDemand : Bool := false
  minBackoff : Option ℚ := none
  maxBackoff : ℚ := 8000
  operator : Option Operator := none
  requestTimeout : Option ℚ := none
  grpcDeadline : Option ℚ := none

def Executable.setMaxAttempts (request : Executable) (maxAttempts : Nat) : Executable :=
  { request with maxAttempts }

/-! ## Failed calls -/

def GrpcStatus.all : List (Int × String) :=
  [(0, "OK"), (1, "CANCELLED"), (2, "UNKNOWN"), (3, "INVALID_ARGUMENT"), (4, "DEADLINE_EXCEEDED"),
    (5, "NOT_FOUND"), (6, "ALREADY_EXISTS"), (7, "PERMISSION_DENIED"), (8, "RESOURCE_EXHAUSTED"),
    (9, "FAILED_PRECONDITION"), (10, "ABORTED"), (11, "OUT_OF_RANGE"), (12, "UNIMPLEMENTED"),
    (13, "INTERNAL"), (14, "UNAVAILABLE"), (15, "DATA_LOSS"), (16, "UNAUTHENTICATED"),
    (17, "TIMEOUT"), (18, "GRPC_WEB")]

/-- `GrpcServiceError._fromResponse` -/
def grpcServiceErrorFromResponse : JsError → Except JsError JsError
  | .channel code details =>
      match GrpcStatus.all.find? fun status => status.1 = code with
      | some (_, name) =>
          .ok (.grpcService code
            s!"gRPC service failed with: Status: {name}, Code: {code}: {details}")
      | none => .error (.error "(BUG) non-exhaustive GrpcStatus switch statement")
  | e => .ok e

/-- `\w` of a regular expression. -/
def isWordChar (c : Char) : Bool := c.isAlphanum || c = '_'

def startsWithIgnoringCase (word text : List Char) : Bool :=
  (text.take word.length).map Char.toLower = word

/-- The expression `rst[^0-9a-zA-Z]stream\b` at the start of a text. -/
def rstStreamHere (text : List Char) : Bool :=
  startsWithIgnoringCase "rst".toList text &&
    match text.drop 3 with
    | separator :: rest =>
        !separator.isAlphanum && startsWithIgnoringCase "stream".toList rest &&
          !(rest.drop 6).head?.any isWordChar
    | [] => false

/-- The same behind a word boundary, anywhere in a text. -/
def rstStreamIn : Option Char → List Char → Bool
  | _, [] => false
  | previous, c :: rest =>
      (!previous.any isWordChar && rstStreamHere (c :: rest)) || rstStreamIn (some c) rest

/-- `RST_STREAM.test` -/
def rstStream (message : String) : Bool := rstStreamIn none message.toList

/-- `_shouldRetryExceptionally`: an error of another class is taken for an HTTP error. -/
def shouldRetryExceptionally : JsError → Bool
  | .grpcService status message =>
      status = 17 || status = 14 || status = 8 || status = 18 || (status = 13 && rstStream message)
  | _ => true

/-- The test of the retry loop: only errors of these two classes are retried. -/
def isRetryable : JsError → Bool
  | .grpcService status message => shouldRetryExceptionally (.grpcService status message)
  | .http message => shouldRetryExceptionally (.http message)
  | _ => false

/-- `error.toString()` of an error that is retried. -/
def JsError.describe : JsError → String
  | .grpcService _ message => s!"GrpcServiceError: {message}"
  | .http message => s!"HttpError: {message}"
  | _ => ""

example : isRetryable (.grpcService 13 "Received RST_STREAM with code 2") = true ∧
    isRetryable (.grpcService 13 "first_stream") = false := by decide +kernel

end HederaSdk
