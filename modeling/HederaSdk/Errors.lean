import HederaSdk.Ids

/-!
# What the SDK throws
-/

namespace HederaSdk

inductive JsError where
  /-- `new Error(message)` -/
  | error (message : String)
  /-- Reading a property of `undefined` or `null`. -/
  | typeError (message : String)
  | badEntityId (id presentChecksum expectedChecksum : String)
  | maxAttemptsOrTimeout (message nodeAccountId : String)
  | precheckStatus (status : Int) (nodeId : AccountId) (transactionId : TransactionId)
  | maxQueryPaymentExceeded (queryCost maxQueryPayment : Int)
  /-- What a channel rejects a call with: `code` and `details` are set. -/
  | channel (code : Int) (details : String)
  | grpcService (status : Int) (message : String)
  | http (message : String)
  /-- A rejection that is no class of the SDK. -/
  | rejected (reason : String)
  deriving DecidableEq

end HederaSdk
