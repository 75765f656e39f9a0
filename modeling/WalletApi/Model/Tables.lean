import Mathlib.Algebra.BigOperators.Group.List.Basic
import Mathlib.Algebra.Order.Ring.Int
import Mathlib.Data.List.Sort
import WalletApi.Storage.ReadCommitted

/-!
The tables of the wallet API.

Each table is a list of rows in the order of insertion; a nullable column is an
`Option`, a timestamp a number of milliseconds, an amount a whole number of
kobo. Rows are never deleted. `Query` has one constructor for each lookup the
repositories make and `Write` one for each statement that changes a table;
`keys` are the entries a row makes in the unique indexes, primary keys
included.

A wallet has no balance column: `sumSuccessfulBalance` recomputes it from the
journal, which is the table `wallet_transactions`.
-/

namespace WalletApi

inductive WalletStatus
  | active | locked
  deriving DecidableEq

inductive WalletTransactionType
  | credit | debit
  deriving DecidableEq

inductive WalletTransactionPurpose
  | flutterwaveFunding | p2p | bankPayout | reversal
  deriving DecidableEq

inductive WalletTransactionStatus
  | pending | successful | failed
  deriving DecidableEq

inductive TransferStatus
  | initiated | pending | successful | failed
  deriving DecidableEq

inductive WithdrawalDestinationType
  | wallet | bank
  deriving DecidableEq

inductive WithdrawalStatus
  | pending | processing | successful | failed | reversed
  deriving DecidableEq

inductive WebhookProvider
  | flutterwave
  deriving DecidableEq

inductive WebhookEventStatus
  | received | processed | failed
  deriving DecidableEq

/-- A parsed JSON value. -/
inductive Json
  | null
  | bool (b : Bool)
  | num (x : Float)
  | str (s : String)
  | arr (elems : List Json)
  | obj (fields : List (String × Json))

structure User where
  id : String
  email : String
  username : String
  firstName : String
  lastName : String
  passwordHash : String
  passwordTryCount : ℕ
  passwordLockedUntil : Option ℕ
  pinHash : Option String
  pinTryCount : ℕ
  pinLockedUntil : Option ℕ
  deriving DecidableEq

structure Wallet where
  id : String
  userId : String
  currency : String
  status : WalletStatus
  deriving DecidableEq

/-- A funding: money that is to come in through the payment provider. -/
structure Transfer where
  id : String
  userId : String
  walletId : String
  amount : ℤ
  currency : String
  status : TransferStatus
  flutterwaveTxRef : String
  flutterwaveId : Option String
  checkoutUrl : Option String
  idempotencyKey : String
  requestBodyHash : String
  createdAt : ℕ
  deriving DecidableEq

/-- A row of the journal. -/
structure WalletTransaction where
  id : String
  walletId : String
  type : WalletTransactionType
  purpose : WalletTransactionPurpose
  status : WalletTransactionStatus
  amount : ℤ
  idempotencyKey : String
  reference : Option String
  counterpartWalletId : Option String
  transferId : Option String
  withdrawalId : Option String
  reversesTransactionId : Option String
  createdAt : ℕ
  deriving DecidableEq

/-- An outflow, to another wallet or to a bank account. -/
structure Withdrawal where
  id : String
  userId : String
  walletId : String
  amount : ℤ
  currency : String
  destinationType : WithdrawalDestinationType
  destinationWalletId : Option String
  bankCode : Option String
  accountNumber : Option String
  accountName : Option String
  status : WithdrawalStatus
  providerReference : Option String
  providerTransferId : Option String
  debitTransactionId : Option String
  creditTransactionId : Option String
  reversalTransactionId : Option String
  idempotencyKey : String
  requestBodyHash : String
  createdAt : ℕ
  deriving DecidableEq

structure WebhookEvent where
  id : String
  provider : WebhookProvider
  eventType : String
  providerEventId : String
  reference : Option String
  payload : Json
  status : WebhookEventStatus
  processedAt : Option ℕ
  createdAt : ℕ

structure Db where
  users : List User
  wallets : List Wallet
  transfers : List Transfer
  walletTransactions : List WalletTransaction
  withdrawals : List Withdrawal
  webhookEvents : List WebhookEvent

namespace Db

def empty : Db := ⟨[], [], [], [], [], []⟩

/-- The journal of one wallet. -/
def journalOf (d : Db) (walletId : String) : List WalletTransaction :=
  d.walletTransactions.filter (·.walletId = walletId)

end Db

/-! ### The balance -/

/-- `SUM(CASE WHEN type = … THEN amount ELSE 0 END)` over the successful rows. -/
def sumSuccessful (type : WalletTransactionType) (rows : List WalletTransaction) : ℤ :=
  ((rows.filter (·.status = .successful)).map fun r => if r.type = type then r.amount else 0).sum

/-- Credits minus debits of the successful rows of a wallet. -/
def sumSuccessfulBalance (d : Db) (walletId : String) : ℤ :=
  sumSuccessful .credit (d.journalOf walletId) - sumSuccessful .debit (d.journalOf walletId)

/-! ### Lookups -/

/-- Newest first, and by descending id among rows of one moment. -/
def WalletTransaction.precedes (r r' : WalletTransaction) : Prop :=
  r'.createdAt < r.createdAt ∨ r.createdAt = r'.createdAt ∧ r'.id ≤ r.id

instance : DecidableRel WalletTransaction.precedes := fun r r' =>
  inferInstanceAs (Decidable (r'.createdAt < r.createdAt ∨ r.createdAt = r'.createdAt ∧ r'.id ≤ r.id))

inductive Query
  | userById (id : String)
  | userByEmail (email : String)
  | userByUsername (username : String)
  | walletById (id : String)
  | walletByUserId (userId : String)
  | transferById (id : String)
  | transferByUserAndIdempotencyKey (userId idempotencyKey : String)
  | transferByFlutterwaveTxRef (txRef : String)
  | walletTransactionById (id : String)
  | walletTransactionByIdempotencyKey (key : String)
  | walletTransactionsByTransferId (transferId : String)
  | walletTransactionPage (walletId : String) (take : ℕ) (cursor : Option String)
  | successfulBalance (walletId : String)
  | withdrawalById (id : String)
  | withdrawalByUserAndIdempotencyKey (userId idempotencyKey : String)
  | withdrawalsByUserId (userId : String)
  | webhookEventById (id : String)
  | webhookEventByProviderEventId (provider : WebhookProvider) (providerEventId : String)
  deriving DecidableEq

namespace Query

def Result : Query → Type
  | userById _ | userByEmail _ | userByUsername _ => Option User
  | walletById _ | walletByUserId _ => Option Wallet
  | transferById _ | transferByUserAndIdempotencyKey .. | transferByFlutterwaveTxRef _ =>
      Option Transfer
  | walletTransactionById _ | walletTransactionByIdempotencyKey _ => Option WalletTransaction
  | walletTransactionsByTransferId _ | walletTransactionPage .. => List WalletTransaction
  | successfulBalance _ => ℤ
  | withdrawalById _ | withdrawalByUserAndIdempotencyKey .. => Option Withdrawal
  | withdrawalsByUserId _ => List Withdrawal
  | webhookEventById _ | webhookEventByProviderEventId .. => Option WebhookEvent

def run : (q : Query) → Db → q.Result
  | userById id, d => d.users.find? (·.id = id)
  | userByEmail email, d => d.users.find? (·.email = email)
  | userByUsername username, d => d.users.find? (·.username = username)
  | walletById id, d => d.wallets.find? (·.id = id)
  | walletByUserId userId, d => d.wallets.find? (·.userId = userId)
  | transferById id, d => d.transfers.find? (·.id = id)
  | transferByUserAndIdempotencyKey userId key, d =>
      d.transfers.find? fun t => t.userId = userId ∧ t.idempotencyKey = key
  | transferByFlutterwaveTxRef txRef, d => d.transfers.find? (·.flutterwaveTxRef = txRef)
  | walletTransactionById id, d => d.walletTransactions.find? (·.id = id)
  | walletTransactionByIdempotencyKey key, d => d.walletTransactions.find? (·.idempotencyKey = key)
  | walletTransactionsByTransferId transferId, d =>
      (d.walletTransactions.filter (·.transferId = some transferId)).insertionSort
        fun r r' => r.createdAt ≤ r'.createdAt
  | walletTransactionPage walletId take cursor, d =>
      let rows := (d.journalOf walletId).insertionSort WalletTransaction.precedes
      match cursor with
      | none => rows.take take
      -- The page begins at the place of the cursor row, whatever its wallet, and
      -- leaves out one row (`skip: 1`).
      | some id =>
          match d.walletTransactions.find? (·.id = id) with
          | none => []
          | some row => ((rows.filter fun r => row.precedes r).drop 1).take take
  | successfulBalance walletId, d => sumSuccessfulBalance d walletId
  | withdrawalById id, d => d.withdrawals.find? (·.id = id)
  | withdrawalByUserAndIdempotencyKey userId key, d =>
      d.withdrawals.find? fun w => w.userId = userId ∧ w.idempotencyKey = key
  | withdrawalsByUserId userId, d =>
      (d.withdrawals.filter (·.userId = userId)).insertionSort
        fun w w' => w'.createdAt ≤ w.createdAt
  | webhookEventById id, d => d.webhookEvents.find? (·.id = id)
  | webhookEventByProviderEventId provider id, d =>
      d.webhookEvents.find? fun e => e.provider = provider ∧ e.providerEventId = id

end Query

/-! ### Writes

A field of an update that is `none` is `undefined` in the source and leaves the
column alone. -/

structure UserUpdate where
  passwordTryCount : Option ℕ := none
  passwordLockedUntil : Option (Option ℕ) := none
  pinHash : Option String := none
  pinTryCount : Option ℕ := none
  pinLockedUntil : Option (Option ℕ) := none
  deriving DecidableEq

structure UpdateTransferData where
  status : Option TransferStatus := none
  flutterwaveId : Option (Option String) := none
  checkoutUrl : Option (Option String) := none
  deriving DecidableEq

structure UpdateWithdrawalProviderData where
  status : Option WithdrawalStatus := none
  providerTransferId : Option (Option String) := none
  debitTransactionId : Option (Option String) := none
  creditTransactionId : Option (Option String) := none
  reversalTransactionId : Option (Option String) := none
  deriving DecidableEq

def User.patch (u : User) (data : UserUpdate) : User :=
  { u with
    passwordTryCount := data.passwordTryCount.getD u.passwordTryCount
    passwordLockedUntil := data.passwordLockedUntil.getD u.passwordLockedUntil
    pinHash := data.pinHash.or u.pinHash
    pinTryCount := data.pinTryCount.getD u.pinTryCount
    pinLockedUntil := data.pinLockedUntil.getD u.pinLockedUntil }

def Transfer.patch (t : Transfer) (data : UpdateTransferData) : Transfer :=
  { t with
    status := data.status.getD t.status
    flutterwaveId := data.flutterwaveId.getD t.flutterwaveId
    checkoutUrl := data.checkoutUrl.getD t.checkoutUrl }

def Withdrawal.patch (w : Withdrawal) (data : UpdateWithdrawalProviderData) : Withdrawal :=
  { w with
    status := data.status.getD w.status
    providerTransferId := data.providerTransferId.getD w.providerTransferId
    debitTransactionId := data.debitTransactionId.getD w.debitTransactionId
    creditTransactionId := data.creditTransactionId.getD w.creditTransactionId
    reversalTransactionId := data.reversalTransactionId.getD w.reversalTransactionId }

def WebhookEvent.mark (e : WebhookEvent) (status : WebhookEventStatus) (processedAt : ℕ) :
    WebhookEvent :=
  { e with status := status, processedAt := some processedAt }

inductive Write
  | createUserWithWallet (user : User) (wallet : Wallet)
  | updateUser (id : String) (data : UserUpdate)
  | createTransfer (row : Transfer)
  | updateTransfer (id : String) (data : UpdateTransferData)
  | createWalletTransaction (row : WalletTransaction)
  | updateWalletTransactionStatus (id : String) (status : WalletTransactionStatus)
  | createWithdrawal (row : Withdrawal)
  | updateWithdrawal (id : String) (data : UpdateWithdrawalProviderData)
  | createWebhookEvent (row : WebhookEvent)
  | updateWebhookEvent (id : String) (status : WebhookEventStatus) (processedAt : ℕ)

/-! ### What the columns hold -/

/-- The amount columns are `INTEGER`: signed and of 32 bits. -/
def Write.inRange : Write → Bool
  | createTransfer row => -2147483648 ≤ row.amount ∧ row.amount ≤ 2147483647
  | createWalletTransaction row => -2147483648 ≤ row.amount ∧ row.amount ≤ 2147483647
  | createWithdrawal row => -2147483648 ≤ row.amount ∧ row.amount ≤ 2147483647
  | _ => true

/-- PostgreSQL takes no U+0000 into a text. -/
def isColumnText (s : String) : Bool := s.toList.all (· ≠ Char.ofNat 0)

namespace Json

mutual

/-- The strings of a value, the names of its fields among them. -/
def strings : Json → List String
  | str s => [s]
  | arr elems => elemStrings elems
  | obj fields => fieldStrings fields
  | _ => []

def elemStrings : List Json → List String
  | [] => []
  | value :: rest => value.strings ++ elemStrings rest

def fieldStrings : List (String × Json) → List String
  | [] => []
  | (name, value) :: rest => name :: value.strings ++ fieldStrings rest

end

end Json

/-- The texts that a write puts into the tables. -/
def Write.texts : Write → List String
  | createUserWithWallet user wallet =>
      [user.id, user.email, user.username, user.firstName, user.lastName, user.passwordHash,
        wallet.id, wallet.userId, wallet.currency] ++ user.pinHash.toList
  | updateUser _ data => data.pinHash.toList
  | createTransfer row =>
      [row.id, row.userId, row.walletId, row.currency, row.flutterwaveTxRef, row.idempotencyKey,
        row.requestBodyHash] ++ row.flutterwaveId.toList ++ row.checkoutUrl.toList
  | updateTransfer _ data => data.flutterwaveId.join.toList ++ data.checkoutUrl.join.toList
  | createWalletTransaction row =>
      [row.id, row.walletId, row.idempotencyKey] ++ row.reference.toList ++
        row.counterpartWalletId.toList ++ row.transferId.toList ++ row.withdrawalId.toList ++
        row.reversesTransactionId.toList
  | createWithdrawal row =>
      [row.id, row.userId, row.walletId, row.currency, row.idempotencyKey, row.requestBodyHash] ++
        row.destinationWalletId.toList ++ row.bankCode.toList ++ row.accountNumber.toList ++
        row.accountName.toList ++ row.providerReference.toList ++ row.providerTransferId.toList ++
        row.debitTransactionId.toList ++ row.creditTransactionId.toList ++
        row.reversalTransactionId.toList
  | updateWithdrawal _ data =>
      data.providerTransferId.join.toList ++ data.debitTransactionId.join.toList ++
        data.creditTransactionId.join.toList ++ data.reversalTransactionId.join.toList
  | createWebhookEvent row =>
      [row.id, row.eventType, row.providerEventId] ++ row.reference.toList ++ row.payload.strings
  | updateWalletTransactionStatus .. | updateWebhookEvent .. => []

/-- The columns can hold the values of a write. -/
def Write.storable (w : Write) : Bool := w.inRange && w.texts.all isColumnText

/-- An entry of a unique index. -/
inductive Key
  | userId (id : String)
  | userEmail (email : String)
  | userUsername (username : String)
  | walletId (id : String)
  | walletUserId (userId : String)
  | transferId (id : String)
  | transferIdempotencyKey (userId key : String)
  | transferFlutterwaveTxRef (txRef : String)
  | walletTransactionId (id : String)
  | walletTransactionIdempotencyKey (key : String)
  | withdrawalId (id : String)
  | withdrawalIdempotencyKey (userId key : String)
  | withdrawalProviderReference (reference : String)
  | webhookEventId (id : String)
  | webhookEventProviderEventId (provider : WebhookProvider) (id : String)
  deriving DecidableEq

def User.keys (u : User) : List Key := [.userId u.id, .userEmail u.email, .userUsername u.username]

def Wallet.keys (w : Wallet) : List Key := [.walletId w.id, .walletUserId w.userId]

def Transfer.keys (t : Transfer) : List Key :=
  [.transferId t.id, .transferIdempotencyKey t.userId t.idempotencyKey,
    .transferFlutterwaveTxRef t.flutterwaveTxRef]

def WalletTransaction.keys (r : WalletTransaction) : List Key :=
  [.walletTransactionId r.id, .walletTransactionIdempotencyKey r.idempotencyKey]

-- A unique index does not count NULLs.
def Withdrawal.keys (w : Withdrawal) : List Key :=
  .withdrawalId w.id :: .withdrawalIdempotencyKey w.userId w.idempotencyKey ::
    w.providerReference.toList.map .withdrawalProviderReference

def WebhookEvent.keys (e : WebhookEvent) : List Key :=
  [.webhookEventId e.id, .webhookEventProviderEventId e.provider e.providerEventId]

namespace Write

/-- Change the row with the given id. -/
def update {α : Type} (id : α → String) (i : String) (f : α → α) (rows : List α) : List α :=
  rows.map fun r => if id r = i then f r else r

def apply : Write → Db → Db
  | createUserWithWallet user wallet, d =>
      { d with users := d.users ++ [user], wallets := d.wallets ++ [wallet] }
  | updateUser id data, d => { d with users := update User.id id (·.patch data) d.users }
  | createTransfer row, d => { d with transfers := d.transfers ++ [row] }
  | updateTransfer id data, d =>
      { d with transfers := update Transfer.id id (·.patch data) d.transfers }
  | createWalletTransaction row, d =>
      { d with walletTransactions := d.walletTransactions ++ [row] }
  | updateWalletTransactionStatus id status, d =>
      { d with
        walletTransactions :=
          update WalletTransaction.id id ({ · with status }) d.walletTransactions }
  | createWithdrawal row, d => { d with withdrawals := d.withdrawals ++ [row] }
  | updateWithdrawal id data, d =>
      { d with withdrawals := update Withdrawal.id id (·.patch data) d.withdrawals }
  | createWebhookEvent row, d => { d with webhookEvents := d.webhookEvents ++ [row] }
  | updateWebhookEvent id status processedAt, d =>
      { d with
        webhookEvents := update WebhookEvent.id id (·.mark status processedAt) d.webhookEvents }

/-- The row a write hands back. -/
def Result : Write → Type
  | createUserWithWallet .. => User × Wallet
  | updateUser .. => User
  | createTransfer _ | updateTransfer .. => Transfer
  | createWalletTransaction _ | updateWalletTransactionStatus .. => WalletTransaction
  | createWithdrawal _ | updateWithdrawal .. => Withdrawal
  | createWebhookEvent _ | updateWebhookEvent .. => WebhookEvent

/-- The row as the write leaves it; `none` where there is no row to update. -/
def result : (w : Write) → Db → Option w.Result
  | createUserWithWallet user wallet, _ => some (user, wallet)
  | updateUser id data, d => (d.users.find? (·.id = id)).map (·.patch data)
  | createTransfer row, _ => some row
  | updateTransfer id data, d => (d.transfers.find? (·.id = id)).map (·.patch data)
  | createWalletTransaction row, _ => some row
  | updateWalletTransactionStatus id status, d =>
      (d.walletTransactions.find? (·.id = id)).map ({ · with status })
  | createWithdrawal row, _ => some row
  | updateWithdrawal id data, d => (d.withdrawals.find? (·.id = id)).map (·.patch data)
  | createWebhookEvent row, _ => some row
  | updateWebhookEvent id status processedAt, d =>
      (d.webhookEvents.find? (·.id = id)).map (·.mark status processedAt)

def keys : Write → List Key
  | createUserWithWallet user wallet => user.keys ++ wallet.keys
  | createTransfer row => row.keys
  | createWalletTransaction row => row.keys
  | createWithdrawal row => row.keys
  | createWebhookEvent row => row.keys
  | updateUser .. | updateTransfer .. | updateWalletTransactionStatus .. | updateWithdrawal ..
  | updateWebhookEvent .. => []

end Write

/-- All entries of the unique indexes. -/
def Db.keys (d : Db) : List Key :=
  d.users.flatMap User.keys ++ d.wallets.flatMap Wallet.keys ++ d.transfers.flatMap Transfer.keys ++
    d.walletTransactions.flatMap WalletTransaction.keys ++ d.withdrawals.flatMap Withdrawal.keys ++
    d.webhookEvents.flatMap WebhookEvent.keys

/-! ### The tables as a schema -/

/-- An update that leaves the indexed columns alone does not change the index. -/
theorem flatMap_update {α : Type} {id : α → String} {i : String} {keys : α → List Key}
    (f : α → α) (hf : ∀ r, keys (f r) = keys r) (rows : List α) :
    (Write.update id i f rows).flatMap keys = rows.flatMap keys := by
  rw [Write.update, List.flatMap_map]
  congr 1
  funext r
  split
  · exact hf r
  · rfl

theorem User.keys_patch (data : UserUpdate) (u : User) : (u.patch data).keys = u.keys := rfl

theorem Transfer.keys_patch (data : UpdateTransferData) (t : Transfer) :
    (t.patch data).keys = t.keys := rfl

theorem WalletTransaction.keys_status (status : WalletTransactionStatus)
    (r : WalletTransaction) : { r with status }.keys = r.keys := rfl

theorem Withdrawal.keys_patch (data : UpdateWithdrawalProviderData) (w : Withdrawal) :
    (w.patch data).keys = w.keys := rfl

theorem WebhookEvent.keys_mark (status : WebhookEventStatus) (processedAt : ℕ)
    (e : WebhookEvent) : (e.mark status processedAt).keys = e.keys := rfl

theorem Write.keys_nodup (w : Write) : w.keys.Nodup := by
  cases w with
  | createWithdrawal row =>
      cases h : row.providerReference <;> simp [Write.keys, Withdrawal.keys, h]
  | createUserWithWallet user wallet => simp [Write.keys, User.keys, Wallet.keys]
  | createTransfer row => simp [Write.keys, Transfer.keys]
  | createWalletTransaction row => simp [Write.keys, WalletTransaction.keys]
  | createWebhookEvent row => simp [Write.keys, WebhookEvent.keys]
  | _ => exact .nil

theorem Write.keys_apply (w : Write) (d : Db) : (w.apply d).keys.Perm (d.keys ++ w.keys) := by
  cases w with
  | updateUser id data =>
      simp [Write.apply, Write.keys, Db.keys, flatMap_update (fun u : User => u.patch data) (User.keys_patch data)]
  | updateTransfer id data =>
      simp [Write.apply, Write.keys, Db.keys, flatMap_update (fun t : Transfer => t.patch data) (Transfer.keys_patch data)]
  | updateWalletTransactionStatus id status =>
      simp [Write.apply, Write.keys, Db.keys,
        flatMap_update (fun r : WalletTransaction => { r with status })
          (WalletTransaction.keys_status status)]
  | updateWithdrawal id data =>
      simp [Write.apply, Write.keys, Db.keys,
        flatMap_update (fun w : Withdrawal => w.patch data) (Withdrawal.keys_patch data)]
  | updateWebhookEvent id status processedAt =>
      simp [Write.apply, Write.keys, Db.keys,
        flatMap_update (fun e : WebhookEvent => e.mark status processedAt)
          (WebhookEvent.keys_mark status processedAt)]
  | _ =>
      classical
      rw [List.perm_iff_count]
      intro k
      simp only [Write.apply, Write.keys, Db.keys, List.flatMap_append, List.flatMap_singleton,
        List.count_append]
      omega

/-- The schema of the store. A wallet row is what can be locked. -/
def schema : ReadCommitted.Schema where
  Db := Db
  Write := Write
  Key := Key
  Row := String
  apply := Write.apply
  keys := Write.keys
  index := Db.keys
  keys_nodup := Write.keys_nodup
  index_apply := Write.keys_apply

end WalletApi
