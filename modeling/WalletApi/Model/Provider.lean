import WalletApi.Model.Tables
import WalletApi.Text.Number

/-!
The payment provider as the services see it, and the two adapters behind that
interface.

The live adapter turns the body of an HTTP answer into a result. The body may be
any JSON value, so the adapter is written on `Json` with the operations of the
source language: a property of `null` is a `TypeError`, a missing property is
`undefined`, and a property of the wrong type is what it is. The mock adapter
answers by itself.

What the runtime brings along is a `Platform`, what the deployment sets a
`Config`.
-/

namespace WalletApi

/-- The library functions the services call. -/
structure Platform where
  /-- The hex digest of `createHash('sha256')`. -/
  sha256 : String → String
  toLowerCase : String → String
  toUpperCase : String → String
  encodeURIComponent : String → String
  /-- `Number` of a string. -/
  stringToNumber : String → Float
  /-- The hash of a password under a salt. -/
  bcryptHash : String → String → String
  bcryptCompare : String → String → Bool
  jwtSign : String → String → String → String

structure Config where
  flutterwaveMock : Option String := none
  flutterwaveSecretKey : Option String := none
  flutterwaveWebhookSecret : Option String := none
  flutterwaveRedirectUrl : Option String := none

/-- A string that JavaScript takes for true. -/
def truthy (s : Option String) : Bool := s.any (· ≠ "")

namespace Config

/-- Which adapter is provided as `FLUTTERWAVE_PROVIDER`. -/
def useMock (config : Config) : Bool :=
  config.flutterwaveMock = some "true" || !truthy config.flutterwaveSecretKey

end Config

/-! ### Errors -/

inductive ErrorCode
  | badRequest | unauthorized | forbidden | notFound | conflict | unprocessableEntity
  | tooManyRequests | badGateway | serviceUnavailable | internalServerError
  deriving DecidableEq

def ErrorCode.statusCode : ErrorCode → ℕ
  | badRequest => 400
  | unauthorized => 401
  | forbidden => 403
  | notFound => 404
  | conflict => 409
  | unprocessableEntity => 422
  | tooManyRequests => 429
  | badGateway => 502
  | serviceUnavailable => 503
  | internalServerError => 500

/-- The errors of the database client that the statements of the model can run
into: `P2002`, `P2025` and `P2020`, and the one without a code for a text that
PostgreSQL does not take. -/
inductive PrismaCode
  | uniqueConstraint | recordNotFound | valueOutOfRange | invalidText
  deriving DecidableEq

inductive Err
  /-- An exception built by `customError`. -/
  | app (code : ErrorCode) (message : String)
  /-- A plain `Error` or `TypeError`. -/
  | error (message : String)
  | prisma (code : PrismaCode)
  /-- A connection to the database, the queue or the provider failed. -/
  | network
  deriving DecidableEq

namespace Err

def message : Err → String
  | app _ message => message
  | error message => message
  | prisma .uniqueConstraint => "Unique constraint failed"
  | prisma .recordNotFound => "Record to update not found."
  | prisma .valueOutOfRange => "Value out of range for the type."
  | prisma .invalidText => "invalid byte sequence for encoding \"UTF8\": 0x00"
  | network => "fetch failed"

/-- The HTTP status the exception filter answers with. -/
def statusCode : Err → ℕ
  | app code _ => code.statusCode
  | _ => 500

end Err

namespace customError

def badRequest (message : String) : Err := .app .badRequest message
def unauthorized (message : String) : Err := .app .unauthorized message
def forbidden (message : String) : Err := .app .forbidden message
def notFound (message : String) : Err := .app .notFound message
def conflict (message : String) : Err := .app .conflict message
def unprocessableEntity (message : String) : Err := .app .unprocessableEntity message
def badGateway (message : String) : Err := .app .badGateway message
def serviceUnavailable (message : String) : Err := .app .serviceUnavailable message
def internalServerError (message : String) : Err := .app .internalServerError message

end customError

/-! ### Money -/

/-- `Math.round(naira * 100)`, on doubles; `none` is `NaN` or infinite. -/
def nairaToKobo (naira : Float) : Option ℤ := JsNumber.round (naira * 100)

/-! ### JSON values as the source language sees them -/

/-- `text.endsWith(suffix)`. -/
def endsWith (text suffix : String) : Bool := suffix.toList.isSuffixOf text.toList

/-- `text.startsWith(start)`. -/
def startsWith (text start : String) : Bool := start.toList.isPrefixOf text.toList

/-- `text.includes(part)`. -/
def includes (text part : String) : Bool := text.toList.tails.any part.toList.isPrefixOf

namespace Json

mutual

/-- `String(value)`. -/
def toText : Json → String
  | null => "null"
  | bool b => if b then "true" else "false"
  | num x => JsNumber.toText x
  | str s => s
  | arr elems => String.intercalate "," (elemTexts elems)
  | obj _ => "[object Object]"

def elemTexts : List Json → List String
  | [] => []
  | null :: rest => "" :: elemTexts rest
  | value :: rest => value.toText :: elemTexts rest

end

/-- A property; `none` is `undefined`, or a property of `null`. -/
def field? (name : String) : Json → Option Json
  | obj fields => (fields.find? (·.1 = name)).map (·.2)
  | _ => none

/-- `value ?? default`. -/
def orElse : Option Json → Json → Json
  | none, default | some null, default => default
  | some value, _ => value

/-- `value?.toString()` of a property that may be missing. -/
def optText : Option Json → Option String
  | none | some null => none
  | some value => some value.toText

def isTruthy : Option Json → Bool
  | none | some null | some (bool false) => false
  | some (num x) => JsNumber.isTruthy x
  | some (str s) => s ≠ ""
  | some _ => true

def isObject : Option Json → Bool
  | some (obj _) | some (arr _) => true
  | _ => false

/-- The string a property holds, if it holds one. -/
def asStr? : Option Json → Option String
  | some (str s) => some s
  | _ => none

/-- `Number(value)`. -/
def toNumber (P : Platform) : Json → Float
  | null => 0
  | bool b => if b then 1 else 0
  | num x => x
  | str s => P.stringToNumber s
  | arr [] => 0
  | value => P.stringToNumber value.toText

/-- `(value ?? '').toLowerCase()`, a `TypeError` on what is not a string. -/
def lowerOrEmpty (P : Platform) : Option Json → Except Err String
  | none | some null => .ok (P.toLowerCase "")
  | some (str s) => .ok (P.toLowerCase s)
  | some _ => .error (.error "toLowerCase is not a function")

end Json

/-! ### The interface -/

structure InitiatePaymentParams where
  txRef : String
  amountKobo : ℤ
  currency : String
  redirectUrl : String
  customerEmail : String
  customerName : String
  deriving DecidableEq

structure InitiatePaymentResult where
  /-- `none` is a value that is not a string. -/
  checkoutUrl : Option String
  providerPaymentId : Option String
  deriving DecidableEq

inductive VerifyStatus
  | successful | failed | pending | unknown
  deriving DecidableEq

structure VerifyPaymentResult where
  status : VerifyStatus
  /-- `none` is `NaN` or infinite. -/
  amountKobo : Option ℤ
  /-- `none` is a value that is not a string. -/
  currency : Option String
  txRef : String
  providerTransactionId : Option String
  deriving DecidableEq

structure InitiateBankTransferParams where
  reference : String
  amountKobo : ℤ
  currency : String
  bankCode : String
  accountNumber : String
  narration : String
  deriving DecidableEq

inductive InitiateStatus
  | successful | pending | failed
  deriving DecidableEq

structure InitiateBankTransferResult where
  status : InitiateStatus
  transferId : Option String
  deriving DecidableEq

inductive TransferOutcome
  | successful | pending | failed | unknown
  deriving DecidableEq

structure BankTransferStatusResult where
  status : TransferOutcome
  transferId : Option String
  deriving DecidableEq

/-- What comes back over HTTP; a body that is not JSON makes `response.json()`
throw. -/
structure HttpAnswer where
  ok : Bool := true
  body : Option Json := none

namespace HttpAnswer

/-- `await response.json()`. -/
def json (answer : HttpAnswer) : Except Err Json :=
  match answer.body with
  | none => .error (.error "Unexpected token in JSON")
  | some .null => .error (.error "Cannot read properties of null")
  | some body => .ok body

/-- The body of an answer that reports success and has data. -/
def successData (answer : HttpAnswer) (body : Json) : Option Json :=
  match body.field? "data" with
  | some data =>
      if answer.ok ∧ Json.asStr? (body.field? "status") = some "success" ∧ Json.isTruthy (some data)
      then some data
      else none
  | none => none

end HttpAnswer

/-! ### `FlutterwavePaymentService`: the live adapter -/

namespace FlutterwavePaymentService

variable (P : Platform)

def initiatePayment (answer : HttpAnswer) : Except Err InitiatePaymentResult := do
  let body ← answer.json
  match answer.successData body with
  | some data =>
      if Json.isTruthy (data.field? "link") then
        return {
          checkoutUrl := Json.asStr? (data.field? "link")
          providerPaymentId := Json.optText (data.field? "id") }
      else
        throw (failure body)
  | none => throw (failure body)
where
  failure (body : Json) : Err :=
    let message :=
      (Json.optText (body.field? "message")).getD "Failed to initiate Flutterwave payment"
    if includes message "FLUTTERWAVE_SECRET_KEY" then customError.serviceUnavailable message
    else customError.badGateway message

/-- The verify endpoint is read whatever its HTTP status. -/
def verifyByTxRef (txRef : String) (answer : HttpAnswer) : Except Err VerifyPaymentResult := do
  let body ← answer.json
  match { answer with ok := true }.successData body with
  | none =>
      return {
        status := .unknown
        amountKobo := some 0
        currency := some "NGN"
        txRef
        providerTransactionId := none }
  | some data =>
      let flwStatus ← Json.lowerOrEmpty P (data.field? "status")
      let status :=
        if flwStatus = "successful" then VerifyStatus.successful
        else if flwStatus = "failed" then .failed
        else if flwStatus = "pending" then .pending
        else .unknown
      let amount := (Json.orElse (data.field? "amount") (.num 0)).toNumber P
      return {
        status
        amountKobo := nairaToKobo amount
        currency := Json.asStr? (some (Json.orElse (data.field? "currency") (.str "NGN")))
        txRef := (Json.optText (data.field? "tx_ref")).getD txRef
        providerTransactionId := Json.optText (data.field? "id") }

/-- Every answer that is not a success, whatever the reason, is `FAILED`. -/
def initiateBankTransfer (answer : HttpAnswer) : Except Err InitiateBankTransferResult := do
  let body ← answer.json
  match answer.successData body with
  | none => return { status := .failed, transferId := none }
  | some data =>
      let flwStatus ← Json.lowerOrEmpty P (data.field? "status")
      let status :=
        if flwStatus = "successful" ∨ flwStatus = "success" then InitiateStatus.successful
        else if flwStatus = "failed" then .failed
        else .pending
      return { status, transferId := Json.optText (data.field? "id") }

def getBankTransferStatus (transferId : String) (answer : HttpAnswer) :
    Except Err BankTransferStatusResult := do
  let body ← answer.json
  match answer.successData body with
  | none => return { status := .unknown, transferId := some transferId }
  | some data =>
      let flwStatus ← Json.lowerOrEmpty P (data.field? "status")
      let status :=
        if flwStatus = "successful" ∨ flwStatus = "success" then TransferOutcome.successful
        else if flwStatus = "failed" then .failed
        else if flwStatus = "pending" ∨ flwStatus = "new" then .pending
        else .unknown
      return {
        status
        transferId := some ((Json.optText (data.field? "id")).getD transferId) }

/-- `verifyWebhookHash`: the header has to be the configured secret. -/
def verifyWebhookSignature (config : Config) (verifHashHeader : Option String) : Bool :=
  let secret :=
    if truthy config.flutterwaveWebhookSecret then config.flutterwaveWebhookSecret
    else config.flutterwaveSecretKey
  truthy secret && truthy verifHashHeader && secret = verifHashHeader

end FlutterwavePaymentService

/-! ### `FlutterwaveMockAdapter` -/

namespace FlutterwaveMockAdapter

def initiatePayment (P : Platform) (params : InitiatePaymentParams) : InitiatePaymentResult where
  checkoutUrl :=
    some ("https://checkout.flutterwave.com/mock?tx_ref=" ++ P.encodeURIComponent params.txRef)
  providerPaymentId := some ("mock-" ++ params.txRef)

def verifyByTxRef (txRef : String) : VerifyPaymentResult where
  status := .successful
  amountKobo := some 0
  currency := some "NGN"
  txRef := txRef
  providerTransactionId := some ("mock-txn-" ++ txRef)

def verifyWebhookSignature (verifHashHeader : Option String) : Bool :=
  verifHashHeader = some "mock-webhook-secret"

def initiateBankTransfer (params : InitiateBankTransferParams) : InitiateBankTransferResult :=
  if endsWith params.accountNumber "000" then
    { status := .failed, transferId := none }
  else if endsWith params.accountNumber "999" then
    { status := .pending, transferId := some ("mock-xfer-fail-" ++ params.reference) }
  else
    { status := .successful, transferId := some ("mock-xfer-ok-" ++ params.reference) }

def getBankTransferStatus (transferId : String) : BankTransferStatusResult :=
  if includes transferId "fail" then { status := .failed, transferId := some transferId }
  else { status := .successful, transferId := some transferId }

end FlutterwaveMockAdapter

end WalletApi
