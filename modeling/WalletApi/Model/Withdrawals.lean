import WalletApi.Model.Auth

/-!
The withdrawal services: the two kinds of request, and the two workers that
bring a bank withdrawal to its end.
-/

namespace WalletApi

open Concurrency

/-- `@Matches(/^\d{n}$/)`. -/
def isDigits (n : ℕ) (s : String) : Bool := s.toList.length = n && s.toList.all Char.isDigit

/-- The body of `POST /withdrawals`, as the validation pipe lets it through. -/
structure CreateWithdrawalDto where
  destinationType : WithdrawalDestinationType
  recipientUsername : Option String := none
  bankCode : Option String := none
  accountNumber : Option String := none
  accountName : Option String := none
  amount : ℤ
  currency : Option String := none
  pin : String
  amount_min : 1 ≤ amount
  amount_max : amount ≤ 5000000000
  recipientUsername_length : destinationType = .wallet →
    ∀ s ∈ recipientUsername, 3 ≤ s.toList.length
  bankCode_digits : destinationType = .bank → ∀ s ∈ bankCode, isDigits 3 s = true
  accountNumber_length : destinationType = .bank → ∀ s ∈ accountNumber, s.toList.length = 10
  accountName_length : destinationType = .bank →
    ∀ s ∈ accountName, 2 ≤ s.toList.length ∧ s.toList.length ≤ 120
  pin_digits : isDigits 4 pin = true

/-- A withdrawal as the responses show it. -/
structure WithdrawalSummary where
  id : String
  amount : ℤ
  currency : String
  destinationType : WithdrawalDestinationType
  destinationWalletId : Option String := none
  status : WithdrawalStatus
  providerReference : Option String := none
  createdAt : ℕ
  deriving DecidableEq

structure WithdrawalResponse where
  message : String
  withdrawal : WithdrawalSummary
  deriving DecidableEq

/-- `(dto.currency ?? 'NGN').toUpperCase()`, which has to be `NGN`. -/
def requireNgn (P : Platform) (currency : Option String) : Program String := do
  let currency := P.toUpperCase (currency.getD "NGN")
  throwIf (currency ≠ "NGN") (customError.badRequest "Only NGN is supported")
  return currency

namespace WithdrawalP2pService

def body (recipientUsername currency : String) (amount : ℤ) : Json :=
  .obj [
    ("destinationType", .str "WALLET"),
    ("recipientUsername", .str recipientUsername),
    ("amount", .num (Float.ofInt amount)),
    ("currency", .str currency)]

def summary (withdrawal : Withdrawal) : WithdrawalSummary where
  id := withdrawal.id
  amount := withdrawal.amount
  currency := withdrawal.currency
  destinationType := withdrawal.destinationType
  destinationWalletId := withdrawal.destinationWalletId
  status := withdrawal.status
  createdAt := withdrawal.createdAt

def response (result : WithdrawalRepository.ExecuteWithdrawalResult) : WithdrawalResponse where
  message :=
    if result.created then "P2P withdrawal completed successfully"
    else "Withdrawal already exists (idempotent replay)"
  withdrawal := summary result.withdrawal

def create (P : Platform) (actor : JwtPayloadUser) (dto : CreateWithdrawalDto)
    (idempotencyKey : String) : Program WithdrawalResponse := do
  let currency ← requireNgn P dto.currency
  throwIf (truthy dto.recipientUsername = false)
    (customError.badRequest "recipientUsername is required for WALLET withdrawals")
  let recipientUsername := P.toLowerCase (trim (dto.recipientUsername.getD ""))
  let requestBodyHash := hashRequestBody P (body recipientUsername currency dto.amount)
  let found ← WalletRepository.findByUserId actor.userId
  let senderWallet ← orThrow found (customError.notFound "Wallet not found")
  let found ← UserRepository.findByUsername recipientUsername
  let recipient ← orThrow found (customError.notFound "Recipient user not found")
  throwIf (recipient.id = actor.userId)
    (customError.badRequest "Cannot transfer to your own wallet")
  let found ← WalletRepository.findByUserId recipient.id
  let recipientWallet ← orThrow found (customError.notFound "Recipient wallet not found")
  throwIf (recipientWallet.status ≠ .active ∨ senderWallet.status ≠ .active)
    (customError.unprocessableEntity "Wallet is not active")
  let result ← WithdrawalRepository.executeP2p
    { userId := actor.userId
      senderWalletId := senderWallet.id
      destinationWalletId := recipientWallet.id
      amount := dto.amount
      currency
      idempotencyKey
      requestBodyHash }
  return response result

end WithdrawalP2pService

/-! ### Bank withdrawals -/

def WITHDRAWAL_PAYOUT_JOB : String := "payout"

def WITHDRAWAL_SETTLE_JOB : String := "settle"

/-- `attempts: 3`. -/
def payoutJob (withdrawalId : String) : Job where
  queue := .withdrawalPayout
  name := WITHDRAWAL_PAYOUT_JOB
  jobId := "withdrawal-payout-" ++ withdrawalId
  data := withdrawalId
  attempts := 3

/-- `attempts: 5`. -/
def settleJob (withdrawalId : String) : Job where
  queue := .withdrawalSettle
  name := WITHDRAWAL_SETTLE_JOB
  jobId := "withdrawal-settle-" ++ withdrawalId
  data := withdrawalId
  attempts := 5

namespace WithdrawalBankService

def body (bankCode accountNumber accountName currency : String) (amount : ℤ) : Json :=
  .obj [
    ("destinationType", .str "BANK"),
    ("bankCode", .str bankCode),
    ("accountNumber", .str accountNumber),
    ("accountName", .str accountName),
    ("amount", .num (Float.ofInt amount)),
    ("currency", .str currency)]

def summary (withdrawal : Withdrawal) : WithdrawalSummary where
  id := withdrawal.id
  amount := withdrawal.amount
  currency := withdrawal.currency
  destinationType := withdrawal.destinationType
  status := withdrawal.status
  providerReference := withdrawal.providerReference
  createdAt := withdrawal.createdAt

def response (result : WithdrawalRepository.ExecuteWithdrawalResult) : WithdrawalResponse where
  message :=
    if result.created then "Bank withdrawal accepted and queued for payout"
    else "Withdrawal already exists (idempotent replay)"
  withdrawal := summary result.withdrawal

/-- `!field?.trim()`. -/
def blank (field : Option String) : Bool := trim (field.getD "") = ""

/-- What follows the acceptance: only the request that created the row enqueues
its payout. -/
def enqueue (result : WithdrawalRepository.ExecuteWithdrawalResult) :
    Program WithdrawalResponse := do
  if result.created then
    let _ ← perform (.queueAdd (payoutJob result.withdrawal.id))
    return response result
  else return response result

def create (P : Platform) (actor : JwtPayloadUser) (dto : CreateWithdrawalDto)
    (idempotencyKey : String) : Program WithdrawalResponse := do
  let currency ← requireNgn P dto.currency
  throwIf (blank dto.bankCode || blank dto.accountNumber || blank dto.accountName)
    (customError.badRequest
      "bankCode, accountNumber, and accountName are required for BANK withdrawals")
  let bankCode := trim (dto.bankCode.getD "")
  let accountNumber := trim (dto.accountNumber.getD "")
  let accountName := trim (dto.accountName.getD "")
  let requestBodyHash :=
    hashRequestBody P (body bankCode accountNumber accountName currency dto.amount)
  let found ← WalletRepository.findByUserId actor.userId
  let wallet ← orThrow found (customError.notFound "Wallet not found")
  throwIf (wallet.status ≠ .active) (customError.unprocessableEntity "Wallet is not active")
  let uuid : String ← perform .randomUUID
  let result ← WithdrawalRepository.executeBankAccept
    { userId := actor.userId
      walletId := wallet.id
      amount := dto.amount
      currency
      bankCode
      accountNumber
      accountName
      providerReference := "wd_" ++ sliceEight actor.userId ++ "_" ++ withoutDashes uuid
      idempotencyKey
      requestBodyHash }
  enqueue result

end WithdrawalBankService

namespace WithdrawalsService

def create (P : Platform) (actor : JwtPayloadUser) (dto : CreateWithdrawalDto)
    (idempotencyKey : String) : Program WithdrawalResponse := do
  AuthService.verifyPin actor.userId dto.pin
  match dto.destinationType with
  | .wallet => WithdrawalP2pService.create P actor dto idempotencyKey
  | .bank => WithdrawalBankService.create P actor dto idempotencyKey

def toSummary (withdrawal : Withdrawal) : WithdrawalSummary where
  id := withdrawal.id
  amount := withdrawal.amount
  currency := withdrawal.currency
  destinationType := withdrawal.destinationType
  destinationWalletId := withdrawal.destinationWalletId
  status := withdrawal.status
  providerReference := withdrawal.providerReference
  createdAt := withdrawal.createdAt

def listMine (actor : JwtPayloadUser) : Program (List WithdrawalSummary) := do
  let rows ← WithdrawalRepository.listByUserId actor.userId
  return rows.map toSummary

def getOne (actor : JwtPayloadUser) (withdrawalId : String) : Program WithdrawalResponse := do
  let found ← WithdrawalRepository.findById withdrawalId
  let withdrawal ← orThrow (found.filter (·.userId = actor.userId))
    (customError.notFound "Withdrawal not found")
  return { message := "Withdrawal retrieved successfully", withdrawal := toSummary withdrawal }

end WithdrawalsService

/-! ### The workers -/

/-- A status that the workers take as final. -/
def WithdrawalStatus.terminal : WithdrawalStatus → Bool
  | successful | failed | reversed => true
  | pending | processing => false

/-- `postReversalCredit` as both workers call it. -/
def reversalInput (withdrawalId walletId : String) (amount : ℤ) (debitTransactionId : String) :
    PostReversalInput where
  walletId := walletId
  amount := amount
  originalDebitId := debitTransactionId
  idempotencyKey := "reversal:" ++ debitTransactionId
  withdrawalId := some withdrawalId
  reference := some ("rev_" ++ withdrawalId)

/-- Give the debit back and say so in the withdrawal. -/
def reverseAndFail (withdrawalId walletId : String) (amount : ℤ) (debitTransactionId : String) :
    Program Unit := do
  let reversal ← WalletLedgerService.postReversalCredit
    (reversalInput withdrawalId walletId amount debitTransactionId)
  let _ ← WithdrawalRepository.update withdrawalId
    { status := some .reversed
      reversalTransactionId := some (some reversal.transaction.id) }
  return

namespace WithdrawalPayoutService

def bankTransferParams (withdrawal : Withdrawal) : InitiateBankTransferParams where
  reference := withdrawal.providerReference.getD "null"
  amountKobo := withdrawal.amount
  currency := withdrawal.currency
  bankCode := withdrawal.bankCode.getD "null"
  accountNumber := withdrawal.accountNumber.getD "null"
  narration := "Wallet withdrawal " ++ withdrawal.id

/-- What the payout does with the answer of the provider. -/
def handleResult (withdrawal : Withdrawal) (result : InitiateBankTransferResult) :
    Program Unit := do
  if result.status = .failed then
    reverseAndFail withdrawal.id withdrawal.walletId withdrawal.amount
      (withdrawal.debitTransactionId.getD "null")
  else
    let _ ← WithdrawalRepository.update withdrawal.id
      { providerTransferId := some result.transferId
        status := some (if result.status = .successful then .successful else .processing) }
    if result.status = .successful then return
    else
      let _ ← perform (.queueAdd (settleJob withdrawal.id))
      return

def processPayout (withdrawalId : String) : Program Unit := do
  let found ← WithdrawalRepository.findById withdrawalId
  match found with
  | none => return
  | some withdrawal =>
      if withdrawal.status.terminal then return
      else if withdrawal.destinationType ≠ .bank then return
      else
        let result : InitiateBankTransferResult ←
          perform (.initiateBankTransfer (bankTransferParams withdrawal))
        handleResult withdrawal result

end WithdrawalPayoutService

namespace WithdrawalSettleService

/-- What the settlement does with the status of the transfer. -/
def handleStatus (withdrawal : Withdrawal) (status : TransferOutcome) : Program Unit := do
  match status with
  | .successful =>
      let _ ← WithdrawalRepository.update withdrawal.id { status := some .successful }
      return
  | .failed =>
      if truthy withdrawal.debitTransactionId then
        reverseAndFail withdrawal.id withdrawal.walletId withdrawal.amount
          (withdrawal.debitTransactionId.getD "")
      else return
  | .pending | .unknown =>
      throw (.error ("Bank transfer still pending: " ++ withdrawal.id))

def processSettle (withdrawalId : String) : Program Unit := do
  let found ← WithdrawalRepository.findById withdrawalId
  match found with
  | none => return
  | some withdrawal =>
      if withdrawal.status.terminal then return
      else
        match withdrawal.providerTransferId with
        | none => return
        | some providerTransferId =>
            if providerTransferId = "" then return
            else
              let status : BankTransferStatusResult ←
                perform (.getBankTransferStatus providerTransferId)
              handleStatus withdrawal status.status

end WithdrawalSettleService

end WalletApi
