import WalletApi.Model.World

/-!
The repositories over the database client, statement by statement.
-/

namespace WalletApi

open Concurrency

abbrev Program (α : Type) := Prog signature α

/-- Issue a command and wait for its answer. -/
def perform (c : Cmd) : Program c.Resp := @Prog.perform signature c

/-- `if (c) { throw e; }` -/
def throwIf (c : Prop) [Decidable c] (e : Err) : Program Unit := if c then .fail e else .ret ()

/-- What a lookup has to find. -/
def orThrow {α : Type} (found : Option α) (e : Err) : Program α :=
  match found with
  | some a => .ret a
  | none => .fail e

/-! ### Statements -/

def select (client : Client) (q : Query) : Program q.Result := perform (.select client q)

def write (client : Client) (w : Write) : Program w.Result := perform (.write client w)

/-- `prisma.$transaction`: whatever the body throws undoes it and is thrown on. -/
def transaction {α : Type} (body : Program α) : Program α :=
  tryCatch
    (do
      let _ ← perform .begin
      let a ← body
      let _ ← perform .commit
      return a)
    fun e => do
      let _ ← perform .rollback
      throw e

def lockWalletRow (walletId : String) : Program Unit := do
  let found : Bool ← perform (.lockWalletRow walletId)
  throwIf (found = false) (.error ("Wallet not found: " ++ walletId))

/-- `sumSuccessfulBalance` of the utility module, as a statement. -/
def selectSuccessfulBalance (client : Client) (walletId : String) : Program ℤ :=
  select client (.successfulBalance walletId)

/-- Ascending id order. -/
def sortWalletIds (ids : List String) : List String := ids.insertionSort (· ≤ ·)

/-- `for (const walletId of walletIds) await lockWalletRow(tx, walletId)`. -/
def lockWalletRows : List String → Program Unit
  | [] => return
  | walletId :: rest => do
      lockWalletRow walletId
      lockWalletRows rest

namespace UserRepository

def findById (id : String) : Program (Option User) := select .pool (.userById id)

def findByEmail (email : String) : Program (Option User) := select .pool (.userByEmail email)

def findByUsername (username : String) : Program (Option User) :=
  select .pool (.userByUsername username)

structure CreateUserData where
  email : String
  username : String
  firstName : String
  lastName : String
  passwordHash : String
  currency : Option String := none

def createWithWallet (data : CreateUserData) : Program (User × Wallet) := do
  let (userId, _) ← perform .defaults
  let (walletId, _) ← perform .defaults
  write .pool (.createUserWithWallet
    { id := userId
      email := data.email
      username := data.username
      firstName := data.firstName
      lastName := data.lastName
      passwordHash := data.passwordHash
      passwordTryCount := 0
      passwordLockedUntil := none
      pinHash := none
      pinTryCount := 0
      pinLockedUntil := none }
    { id := walletId
      userId
      currency := data.currency.getD "NGN"
      status := .active })

def recordPasswordFailure (id : String) (attempts : ℕ) (lockedUntil : Option ℕ) :
    Program User :=
  write .pool (.updateUser id
    { passwordTryCount := some attempts, passwordLockedUntil := some lockedUntil })

def resetPasswordFailures (id : String) : Program User :=
  write .pool (.updateUser id { passwordTryCount := some 0, passwordLockedUntil := some none })

def setPinHash (id pinHash : String) : Program User :=
  write .pool (.updateUser id
    { pinHash := some pinHash, pinTryCount := some 0, pinLockedUntil := some none })

def recordPinFailure (id : String) (attempts : ℕ) (lockedUntil : Option ℕ) : Program User :=
  write .pool (.updateUser id
    { pinTryCount := some attempts, pinLockedUntil := some lockedUntil })

def resetPinFailures (id : String) : Program User :=
  write .pool (.updateUser id { pinTryCount := some 0, pinLockedUntil := some none })

end UserRepository

namespace WalletRepository

def findByUserId (userId : String) : Program (Option Wallet) :=
  select .pool (.walletByUserId userId)

end WalletRepository

namespace TransferRepository

def findById (id : String) : Program (Option Transfer) := select .pool (.transferById id)

def findByUserAndIdempotencyKey (userId idempotencyKey : String) : Program (Option Transfer) :=
  select .pool (.transferByUserAndIdempotencyKey userId idempotencyKey)

def findByFlutterwaveTxRef (txRef : String) : Program (Option Transfer) :=
  select .pool (.transferByFlutterwaveTxRef txRef)

structure CreateTransferData where
  userId : String
  walletId : String
  amount : ℤ
  currency : String
  flutterwaveTxRef : String
  idempotencyKey : String
  requestBodyHash : String

def create (data : CreateTransferData) : Program Transfer := do
  let (id, createdAt) ← perform .defaults
  write .pool (.createTransfer
    { id
      userId := data.userId
      walletId := data.walletId
      amount := data.amount
      currency := data.currency
      status := .initiated
      flutterwaveTxRef := data.flutterwaveTxRef
      flutterwaveId := none
      checkoutUrl := none
      idempotencyKey := data.idempotencyKey
      requestBodyHash := data.requestBodyHash
      createdAt })

def update (id : String) (data : UpdateTransferData) : Program Transfer :=
  write .pool (.updateTransfer id data)

end TransferRepository

namespace WebhookEventRepository

def findById (id : String) : Program (Option WebhookEvent) := select .pool (.webhookEventById id)

def findByProviderEventId (provider : WebhookProvider) (providerEventId : String) :
    Program (Option WebhookEvent) :=
  select .pool (.webhookEventByProviderEventId provider providerEventId)

structure CreateWebhookEventData where
  provider : WebhookProvider
  eventType : String
  providerEventId : String
  reference : Option String
  payload : Json

def create (data : CreateWebhookEventData) : Program WebhookEvent := do
  let (id, createdAt) ← perform .defaults
  write .pool (.createWebhookEvent
    { id
      provider := data.provider
      eventType := data.eventType
      providerEventId := data.providerEventId
      reference := data.reference
      payload := data.payload
      status := .received
      processedAt := none
      createdAt })

def mark (id : String) (status : WebhookEventStatus) : Program WebhookEvent := do
  let processedAt : ℕ ← perform .now
  write .pool (.updateWebhookEvent id status processedAt)

def markProcessed (id : String) : Program WebhookEvent := mark id .processed

def markFailed (id : String) : Program WebhookEvent := mark id .failed

end WebhookEventRepository

/-! ### The journal -/

namespace WalletTransactionRepository

structure CreateWalletTransactionData where
  walletId : String
  type : WalletTransactionType
  purpose : WalletTransactionPurpose
  status : WalletTransactionStatus
  amount : ℤ
  idempotencyKey : String
  reference : Option String := none
  counterpartWalletId : Option String := none
  transferId : Option String := none
  withdrawalId : Option String := none
  reversesTransactionId : Option String := none
  deriving DecidableEq

/-- The row that an insert with these data makes. -/
def CreateWalletTransactionData.row (data : CreateWalletTransactionData) (id : String)
    (createdAt : ℕ) : WalletTransaction where
  id := id
  walletId := data.walletId
  type := data.type
  purpose := data.purpose
  status := data.status
  amount := data.amount
  idempotencyKey := data.idempotencyKey
  reference := data.reference
  counterpartWalletId := data.counterpartWalletId
  transferId := data.transferId
  withdrawalId := data.withdrawalId
  reversesTransactionId := data.reversesTransactionId
  createdAt := createdAt

def findById (client : Client) (id : String) : Program (Option WalletTransaction) :=
  select client (.walletTransactionById id)

def findByIdempotencyKey (client : Client) (key : String) : Program (Option WalletTransaction) :=
  select client (.walletTransactionByIdempotencyKey key)

def findByTransferId (transferId : String) : Program (List WalletTransaction) :=
  select .pool (.walletTransactionsByTransferId transferId)

structure ListWalletTransactionsResult where
  items : List WalletTransaction
  nextCursor : Option String
  deriving DecidableEq

def listByWalletId (walletId : String) (limit : Option ℕ) (cursor : Option String) :
    Program ListWalletTransactionsResult := do
  let limit := min (max (limit.getD 20) 1) 100
  let rows : List WalletTransaction ←
    select .pool (.walletTransactionPage walletId (limit + 1) (cursor.filter (· ≠ "")))
  let hasMore := limit < rows.length
  let slice := if hasMore then rows.take limit else rows
  return { items := slice, nextCursor := if hasMore then slice.getLast?.map (·.id) else none }

/-- `tx.walletTransaction.create`. -/
def insert (data : CreateWalletTransactionData) : Program WalletTransaction := do
  let (id, createdAt) ← perform .defaults
  write .tx (.createWalletTransaction (data.row id createdAt))

def updateStatus (id : String) (status : WalletTransactionStatus) : Program WalletTransaction :=
  write .tx (.updateWalletTransactionStatus id status)

end WalletTransactionRepository

/-! ### Withdrawals -/

namespace WithdrawalRepository

open WalletTransactionRepository

structure ExecuteP2pWithdrawalData where
  userId : String
  senderWalletId : String
  destinationWalletId : String
  amount : ℤ
  currency : String
  idempotencyKey : String
  requestBodyHash : String
  deriving DecidableEq

structure ExecuteBankWithdrawalData where
  userId : String
  walletId : String
  amount : ℤ
  currency : String
  bankCode : String
  accountNumber : String
  accountName : String
  providerReference : String
  idempotencyKey : String
  requestBodyHash : String
  deriving DecidableEq

structure ExecuteWithdrawalResult where
  withdrawal : Withdrawal
  created : Bool
  deriving DecidableEq

def findById (id : String) : Program (Option Withdrawal) := select .pool (.withdrawalById id)

def findByUserAndIdempotencyKey (client : Client) (userId idempotencyKey : String) :
    Program (Option Withdrawal) :=
  select client (.withdrawalByUserAndIdempotencyKey userId idempotencyKey)

def listByUserId (userId : String) : Program (List Withdrawal) :=
  select .pool (.withdrawalsByUserId userId)

/-- The lookup before the transaction: a row of another request is a conflict. -/
def replay (withdrawal : Withdrawal) (requestBodyHash : String) :
    Program ExecuteWithdrawalResult := do
  throwIf (withdrawal.requestBodyHash ≠ requestBodyHash)
    (customError.conflict "Idempotency-Key was already used with a different request body")
  return { withdrawal, created := false }

/-- The `catch` around the transaction. -/
def rethrowWalletMissing {α : Type} (body : Program α) : Program α :=
  tryCatch body fun e =>
    if startsWith e.message "Wallet not found:" then throw (customError.notFound "Wallet not found")
    else throw e

/-- The row that `executeP2p` creates. -/
def ExecuteP2pWithdrawalData.withdrawal (data : ExecuteP2pWithdrawalData) (id : String)
    (createdAt : ℕ) : Withdrawal where
  id := id
  userId := data.userId
  walletId := data.senderWalletId
  amount := data.amount
  currency := data.currency
  destinationType := .wallet
  destinationWalletId := some data.destinationWalletId
  bankCode := none
  accountNumber := none
  accountName := none
  status := .successful
  providerReference := none
  providerTransferId := none
  debitTransactionId := none
  creditTransactionId := none
  reversalTransactionId := none
  idempotencyKey := data.idempotencyKey
  requestBodyHash := data.requestBodyHash
  createdAt := createdAt

def ExecuteP2pWithdrawalData.debit (data : ExecuteP2pWithdrawalData) (withdrawalId : String) :
    CreateWalletTransactionData where
  walletId := data.senderWalletId
  type := .debit
  purpose := .p2p
  status := .successful
  amount := data.amount
  idempotencyKey := "p2p-debit:" ++ data.userId ++ ":" ++ data.idempotencyKey
  counterpartWalletId := some data.destinationWalletId
  withdrawalId := some withdrawalId

def ExecuteP2pWithdrawalData.credit (data : ExecuteP2pWithdrawalData) (withdrawalId : String) :
    CreateWalletTransactionData where
  walletId := data.destinationWalletId
  type := .credit
  purpose := .p2p
  status := .successful
  amount := data.amount
  idempotencyKey := "p2p-credit:" ++ data.userId ++ ":" ++ data.idempotencyKey
  counterpartWalletId := some data.senderWalletId
  withdrawalId := some withdrawalId

/-- The body of the transaction of `executeP2p`. -/
def p2pTransaction (data : ExecuteP2pWithdrawalData) : Program ExecuteWithdrawalResult := do
  let again ← findByUserAndIdempotencyKey .tx data.userId data.idempotencyKey
  match again with
  | some withdrawal => return { withdrawal, created := false }
  | none =>
      lockWalletRows (sortWalletIds [data.senderWalletId, data.destinationWalletId])
      let available ← selectSuccessfulBalance .tx data.senderWalletId
      throwIf (available < data.amount)
        (customError.unprocessableEntity "Insufficient wallet balance")
      let (id, createdAt) ← perform .defaults
      let withdrawal : Withdrawal ← write .tx (.createWithdrawal (data.withdrawal id createdAt))
      let debit ← insert (data.debit withdrawal.id)
      let credit ← insert (data.credit withdrawal.id)
      let updated : Withdrawal ← write .tx (.updateWithdrawal withdrawal.id
        { debitTransactionId := some (some debit.id)
          creditTransactionId := some (some credit.id) })
      return { withdrawal := updated, created := true }

def executeP2p (data : ExecuteP2pWithdrawalData) : Program ExecuteWithdrawalResult := do
  let existing ← findByUserAndIdempotencyKey .pool data.userId data.idempotencyKey
  match existing with
  | some withdrawal => replay withdrawal data.requestBodyHash
  | none => rethrowWalletMissing (transaction (p2pTransaction data))

/-- The row that `executeBankAccept` creates. -/
def ExecuteBankWithdrawalData.withdrawal (data : ExecuteBankWithdrawalData) (id : String)
    (createdAt : ℕ) : Withdrawal where
  id := id
  userId := data.userId
  walletId := data.walletId
  amount := data.amount
  currency := data.currency
  destinationType := .bank
  destinationWalletId := none
  bankCode := some data.bankCode
  accountNumber := some data.accountNumber
  accountName := some data.accountName
  status := .processing
  providerReference := some data.providerReference
  providerTransferId := none
  debitTransactionId := none
  creditTransactionId := none
  reversalTransactionId := none
  idempotencyKey := data.idempotencyKey
  requestBodyHash := data.requestBodyHash
  createdAt := createdAt

def ExecuteBankWithdrawalData.debit (data : ExecuteBankWithdrawalData) (withdrawalId : String) :
    CreateWalletTransactionData where
  walletId := data.walletId
  type := .debit
  purpose := .bankPayout
  status := .successful
  amount := data.amount
  idempotencyKey := "bank-debit:" ++ data.userId ++ ":" ++ data.idempotencyKey
  reference := some data.providerReference
  withdrawalId := some withdrawalId

/-- The body of the transaction of `executeBankAccept`. -/
def bankTransaction (data : ExecuteBankWithdrawalData) : Program ExecuteWithdrawalResult := do
  let again ← findByUserAndIdempotencyKey .tx data.userId data.idempotencyKey
  match again with
  | some withdrawal => return { withdrawal, created := false }
  | none =>
      lockWalletRow data.walletId
      let available ← selectSuccessfulBalance .tx data.walletId
      throwIf (available < data.amount)
        (customError.unprocessableEntity "Insufficient wallet balance")
      let (id, createdAt) ← perform .defaults
      let withdrawal : Withdrawal ← write .tx (.createWithdrawal (data.withdrawal id createdAt))
      let debit ← insert (data.debit withdrawal.id)
      let updated : Withdrawal ← write .tx (.updateWithdrawal withdrawal.id
        { debitTransactionId := some (some debit.id) })
      return { withdrawal := updated, created := true }

def executeBankAccept (data : ExecuteBankWithdrawalData) : Program ExecuteWithdrawalResult := do
  let existing ← findByUserAndIdempotencyKey .pool data.userId data.idempotencyKey
  match existing with
  | some withdrawal => replay withdrawal data.requestBodyHash
  | none => rethrowWalletMissing (transaction (bankTransaction data))

def update (id : String) (data : UpdateWithdrawalProviderData) : Program Withdrawal :=
  write .pool (.updateWithdrawal id data)

end WithdrawalRepository

end WalletApi
