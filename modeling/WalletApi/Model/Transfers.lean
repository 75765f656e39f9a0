import WalletApi.Model.Withdrawals

/-!
The funding services: the request that opens a transfer, the webhook by which
the provider reports it, and the worker that credits it.
-/

namespace WalletApi

open Concurrency

/-- The body of `POST /transfers`, as the validation pipe lets it through. -/
structure CreateTransferDto where
  amount : ℤ
  currency : Option String := none
  pin : String
  amount_min : 100 ≤ amount
  amount_max : amount ≤ 5000000000
  pin_digits : isDigits 4 pin = true

structure TransferSummary where
  id : String
  amount : ℤ
  currency : String
  status : TransferStatus
  flutterwaveTxRef : String
  checkoutUrl : Option String
  createdAt : ℕ
  deriving DecidableEq

structure TransferResponse where
  message : String
  transfer : TransferSummary
  deriving DecidableEq

def Transfer.toResponse (transfer : Transfer) (message : String) : TransferResponse where
  message := message
  transfer :=
    { id := transfer.id
      amount := transfer.amount
      currency := transfer.currency
      status := transfer.status
      flutterwaveTxRef := transfer.flutterwaveTxRef
      checkoutUrl := transfer.checkoutUrl
      createdAt := transfer.createdAt }

def newFlutterwaveTxRef (userId : String) : Program String := do
  let uuid : String ← perform .randomUUID
  return "fund_" ++ sliceEight userId ++ "_" ++ withoutDashes uuid

namespace TransferCreateService

def body (amount : ℤ) (currency : String) : Json :=
  .obj [("amount", .num (Float.ofInt amount)), ("currency", .str currency)]

/-- The answer to a key that has been used before. -/
def replay (existing : Transfer) (bodyHash : String) : Program TransferResponse := do
  throwIf (existing.requestBodyHash ≠ bodyHash)
    (customError.conflict "Idempotency-Key was already used with a different request body")
  return existing.toResponse "Transfer already exists (idempotent replay)"

/-- The journal row that waits for the money of a transfer. -/
def pendingCredit (transfer : Transfer) (idempotencyKey : String) : PostCreditPendingInput where
  walletId := transfer.walletId
  amount := transfer.amount
  idempotencyKey := "funding:" ++ transfer.userId ++ ":" ++ idempotencyKey
  transferId := some transfer.id
  reference := some transfer.flutterwaveTxRef

/-- The payment the provider is asked for. -/
def paymentParams (config : Config) (user : User) (transfer : Transfer) :
    InitiatePaymentParams where
  txRef := transfer.flutterwaveTxRef
  amountKobo := transfer.amount
  currency := transfer.currency
  redirectUrl := config.flutterwaveRedirectUrl.getD "http://localhost:3010/funding/callback"
  customerEmail := user.email
  customerName := trim (user.firstName ++ " " ++ user.lastName)

/-- A transfer that has not been asked for before. -/
def open' (config : Config) (actor : JwtPayloadUser) (amount : ℤ)
    (currency idempotencyKey bodyHash : String) : Program TransferResponse := do
  let found ← WalletRepository.findByUserId actor.userId
  let wallet ← orThrow found (customError.notFound "Wallet not found")
  let found ← UserRepository.findById actor.userId
  let user ← orThrow found (customError.unauthorized "User not found")
  let txRef ← newFlutterwaveTxRef actor.userId
  let transfer ← TransferRepository.create
    { userId := actor.userId
      walletId := wallet.id
      amount
      currency
      flutterwaveTxRef := txRef
      idempotencyKey
      requestBodyHash := bodyHash }
  let _ ← WalletLedgerService.postCreditPending (pendingCredit transfer idempotencyKey)
  let payment : InitiatePaymentResult ←
    perform (.initiatePayment (paymentParams config user transfer))
  -- The database client turns down a link that is not a string.
  let checkoutUrl ← orThrow payment.checkoutUrl
    (.error "Invalid value provided.")
  let updated ← TransferRepository.update transfer.id
    { status := some .pending
      checkoutUrl := some (some checkoutUrl)
      flutterwaveId := some payment.providerPaymentId }
  return updated.toResponse "Transfer initiated successfully"

def create (P : Platform) (config : Config) (actor : JwtPayloadUser) (dto : CreateTransferDto)
    (idempotencyKey : String) : Program TransferResponse := do
  AuthService.verifyPin actor.userId dto.pin
  let currency ← requireNgn P dto.currency
  let bodyHash := hashRequestBody P (body dto.amount currency)
  let existing ← TransferRepository.findByUserAndIdempotencyKey actor.userId idempotencyKey
  match existing with
  | some existing => replay existing bodyHash
  | none => open' config actor dto.amount currency idempotencyKey bodyHash

end TransferCreateService

/-! ### The webhook -/

def TRANSFER_COMPLETE_JOB : String := "complete"

def completeJob (webhookEventId : String) : Job where
  queue := .transferComplete
  name := TRANSFER_COMPLETE_JOB
  jobId := "transfer-complete-" ++ webhookEventId
  data := webhookEventId
  attempts := 1

namespace TransferWebhookService

/-- `flw-${id}` of a string or a number. -/
def eventId : Option Json → Option String
  | some (.str s) => some ("flw-" ++ s)
  | some (.num x) => some ("flw-" ++ JsNumber.toText x)
  | _ => none

def requireProviderEventId (body data : Json) : Program String :=
  orThrow ((eventId (data.field? "id")).or (eventId (body.field? "id")))
    (customError.badRequest "Flutterwave webhook missing provider event id (data.id)")

/-- `body.data` where it is an object. -/
def data (body : Json) : Json :=
  if Json.isObject (body.field? "data") then (body.field? "data").getD (.obj []) else .obj []

def verifySignature (config : Config) (verifHash : Option String) : Bool :=
  if config.useMock then FlutterwaveMockAdapter.verifyWebhookSignature verifHash
  else FlutterwavePaymentService.verifyWebhookSignature config verifHash

/-- An event that has been received before is enqueued again unless it is done. -/
def handleExisting (existing : WebhookEvent) : Program String := do
  if existing.status ≠ .processed then
    let _ ← perform (.queueAdd (completeJob existing.id))
    return existing.id
  else return existing.id

/-- The answer is the id of the stored event. -/
def handleFlutterwaveWebhook (config : Config) (verifHash : Option String) (body : Json) :
    Program String := do
  throwIf (verifySignature config verifHash = false)
    (customError.unauthorized "Invalid Flutterwave webhook signature")
  let eventType := (Json.asStr? (body.field? "event")).getD "charge.completed"
  let data := data body
  let txRef := (Json.asStr? (data.field? "tx_ref")).or (Json.asStr? (data.field? "txRef"))
  let providerEventId ← requireProviderEventId body data
  let existing ← WebhookEventRepository.findByProviderEventId .flutterwave providerEventId
  match existing with
  | some existing => handleExisting existing
  | none =>
      let created ← WebhookEventRepository.create
        { provider := .flutterwave
          eventType
          providerEventId
          reference := txRef
          payload := body }
      let _ ← perform (.queueAdd (completeJob created.id))
      return created.id

end TransferWebhookService

/-! ### The completion -/

namespace TransferCompleteService

def extractTxRef (payload : Json) : Option String :=
  if Json.isObject (some payload) then
    let nested :=
      if Json.isObject (payload.field? "data") then
        ((payload.field? "data").bind (·.field? "tx_ref"))
      else none
    (Json.asStr? nested).or
      ((Json.asStr? (payload.field? "txRef")).or (Json.asStr? (payload.field? "tx_ref")))
  else none

/-- `event.reference || extractTxRef(event.payload)`, if that is not empty. -/
def txRef (event : WebhookEvent) : Option String :=
  (event.reference.filter (· ≠ "")).or ((extractTxRef event.payload).filter (· ≠ ""))

/-- Credit the transfer, unless that has been done. -/
def credit (event : WebhookEvent) (transfer : Transfer) : Program Unit := do
  let credits ← WalletTransactionRepository.findByTransferId transfer.id
  let pending := credits.find? fun c => c.type = .credit ∧ c.status = .pending
  let already := credits.find? fun c => c.type = .credit ∧ c.status = .successful
  match already with
  | some _ => return
  | none =>
      match pending with
      | none =>
          let _ ← WebhookEventRepository.markFailed event.id
          throw (customError.internalServerError "Pending credit journal missing for transfer")
      | some pending =>
          let _ ← WalletLedgerService.completeCreditSuccessful
            { transactionId := pending.id, expectedWalletId := transfer.walletId }
          return

/-- The provider has confirmed the payment. -/
def settle (event : WebhookEvent) (transfer : Transfer) (verified : VerifyPaymentResult) :
    Program Unit := do
  if ¬(verified.amountKobo = some 0 ∨ verified.amountKobo = some transfer.amount) ∨
      verified.currency ≠ some transfer.currency then
    let _ ← WebhookEventRepository.markFailed event.id
    throw (customError.unprocessableEntity "Verified payment amount/currency mismatch")
  else
    credit event transfer
    let _ ← TransferRepository.update transfer.id
      { status := some .successful
        flutterwaveId := some (verified.providerTransactionId.or transfer.flutterwaveId) }
    let _ ← WebhookEventRepository.markProcessed event.id
    return

/-- A payment that is not confirmed fails the transfer if it has failed. -/
def handleVerified (event : WebhookEvent) (transfer : Transfer) (verified : VerifyPaymentResult) :
    Program Unit := do
  if verified.status ≠ .successful then
    if verified.status = .failed then
      let _ ← TransferRepository.update transfer.id { status := some .failed }
      let _ ← WebhookEventRepository.markProcessed event.id
      return
    else return
  else settle event transfer verified

def complete (event : WebhookEvent) (txRef : String) : Program Unit := do
  let found ← TransferRepository.findByFlutterwaveTxRef txRef
  match found with
  | none =>
      let _ ← WebhookEventRepository.markFailed event.id
      return
  | some transfer =>
      if transfer.status = .successful then
        let _ ← WebhookEventRepository.markProcessed event.id
        return
      else
        let verified : VerifyPaymentResult ← perform (.verifyByTxRef txRef)
        handleVerified event transfer verified

def completeFromWebhook (webhookEventId : String) : Program Unit := do
  let found ← WebhookEventRepository.findById webhookEventId
  match found with
  | none => return
  | some event =>
      if event.status = .processed then return
      else
        match txRef event with
        | none =>
            let _ ← WebhookEventRepository.markFailed event.id
            throw (customError.badRequest "Webhook missing tx_ref")
        | some txRef => complete event txRef

end TransferCompleteService

namespace TransfersService

def getOne (actor : JwtPayloadUser) (transferId : String) : Program TransferResponse := do
  let found ← TransferRepository.findById transferId
  let transfer ← orThrow (found.filter (·.userId = actor.userId))
    (customError.notFound "Transfer not found")
  return transfer.toResponse "Transfer retrieved successfully"

end TransfersService

end WalletApi
