import WalletApi.Runs.Lone
import WalletApi.Runs.Users
import WalletApi.Safety.Idempotency

/-!
Which amounts can be processed.

The amount columns are signed integers of 32 bits, and the validation of both
requests admits amounts up to five thousand million kobo. A request that is
alone, in calm weather, and for which everything else is in order stores exactly
its amount, if the amount fits the column; if it does not, the database refuses
the first row, nothing is stored, and the request fails. The same holds of a text with
U+0000, which the validation admits in the account that a withdrawal is paid to.
-/

namespace WalletApi

open Concurrency ReadCommitted Machine World WithdrawalRepository WalletTransactionRepository

variable {P : Platform} {config : Config} {call : Call} {i n : ℕ} {ws : List Write} {d : Db} {s : World}

/-! ### The inserts -/

theorem not_mem_applyAll {k : Key} (hd : k ∉ d.keys) (hws : ∀ w ∈ ws, k ∉ w.keys) :
    k ∉ Db.keys (schema.applyAll ws d) := by
  intro hk
  rcases (Schema.mem_index_applyAll (T := schema)).mp hk with hk | ⟨w, hw, hkw⟩
  · exact hd hk
  · exact hws w hw hkw

theorem calm_insert {data : CreateWalletTransactionData}
    {Q : Except Err WalletTransaction → World → Prop} (h : Lone i n (some ws) d s)
    (hstorable : ∀ stamp : String × ℕ, isColumnText stamp.1 = true →
      (Write.createWalletTransaction (data.row stamp.1 stamp.2)).storable = true)
    (hkey : .walletTransactionIdempotencyKey data.idempotencyKey ∉ Db.keys (schema.applyAll ws d))
    (hQ : ∀ (stamp : String × ℕ) t, isColumnText stamp.1 = true →
      Lone i n (some (ws ++ [.createWalletTransaction (data.row stamp.1 stamp.2)])) d t →
      Q (.ok (data.row stamp.1 stamp.2)) t) :
    Calmly P config i call (insert data) Q s := by
  refine Total.bind (calm_defaults h fun stamp t htext hnew ht => ?_)
  refine calm_write_tx ht (hstorable stamp htext) rfl (fun k hk => ?_) fun u hu => hQ stamp u htext hu
  rcases List.mem_cons.mp hk with rfl | hk
  · exact hnew _ (.tail _ (.head _))
  · rw [List.mem_singleton.mp hk]
    exact hkey

/-! ### New keys -/

section Keys

variable {userId key : String}

theorem withdrawalKey_new
    (hfresh : ∀ w ∈ d.withdrawals, ¬(w.userId = userId ∧ w.idempotencyKey = key)) :
    Key.withdrawalIdempotencyKey userId key ∉ d.keys := by
  rw [mem_keys_withdrawalIdempotencyKey]
  rintro ⟨w, hw, hboth⟩
  exact hfresh w hw hboth

/-- No row of a request is there before its withdrawal is. -/
theorem rowKeys_new (hb : d.Books) (hkey : isUuid4 key = true)
    (hfresh : ∀ w ∈ d.withdrawals, ¬(w.userId = userId ∧ w.idempotencyKey = key)) :
    ∀ k ∈ withdrawalRowKeys userId key, Key.walletTransactionIdempotencyKey k ∉ d.keys := by
  intro k hk
  rw [mem_keys_walletTransactionIdempotencyKey]
  rintro ⟨r, hr, rfl⟩
  obtain ⟨w, hw, hboth⟩ := exists_withdrawal_of_rowKey hb hkey hr hk
  exact hfresh w hw hboth

theorem rowKey_not_mem_withdrawal (w : Withdrawal) (k : String) :
    Key.walletTransactionIdempotencyKey k ∉ (Write.createWithdrawal w).keys := by
  simp [Write.keys, Withdrawal.keys]

/-- A new withdrawal does not make the key of a row old. -/
theorem rowKey_new_after {w : Withdrawal} {k : String}
    (h : Key.walletTransactionIdempotencyKey k ∉ d.keys) :
    Key.walletTransactionIdempotencyKey k ∉ Db.keys (schema.applyAll [.createWithdrawal w] d) := by
  refine not_mem_applyAll h fun w' hw => ?_
  rw [List.mem_singleton.mp hw]
  exact rowKey_not_mem_withdrawal w k

theorem Withdrawal.keys_new {w : Withdrawal} (hid : Key.withdrawalId w.id ∉ d.keys)
    (hfresh : ∀ x ∈ d.withdrawals, ¬(x.userId = w.userId ∧ x.idempotencyKey = w.idempotencyKey))
    (href : ∀ ref, w.providerReference = some ref → ∀ x ∈ d.withdrawals, x.providerReference ≠ some ref) :
    ∀ k ∈ w.keys, k ∉ d.keys := by
  intro k hk
  rcases List.mem_cons.mp hk with rfl | hk
  · exact hid
  · rcases List.mem_cons.mp hk with rfl | hk
    · exact withdrawalKey_new hfresh
    · obtain ⟨ref, hmem, rfl⟩ := List.mem_map.mp hk
      rw [mem_keys_withdrawalProviderReference]
      rintro ⟨x, hx, hxref⟩
      exact href ref (Option.mem_toList.mp hmem) x hx hxref

/-- The credit of a transfer has been written for the transfer of the request. -/
theorem exists_transfer_of_rowKey {r : WalletTransaction} (hb : d.Books) (hkey : isUuid4 key = true)
    (hr : r ∈ d.walletTransactions) (hrow : r.idempotencyKey = "funding:" ++ userId ++ ":" ++ key) :
    ∃ t ∈ d.transfers, t.userId = userId ∧ t.idempotencyKey = key := by
  have different {a x : String} (ha : a ∈ keyStarts) (hne : a ≠ "funding:")
      (hra : r.idempotencyKey = a ++ x) : False := by
    have heq := hra.symm.trans hrow
    rw [String.append_assoc, String.append_assoc] at heq
    exact ne_of_keyStarts ha (by decide) hne heq
  cases hb.origin r hr with
  | funding t ht hmade _ =>
      have hk : r.core.idempotencyKey = t.creditData.idempotencyKey := by rw [hmade]; rfl
      have hk' : r.idempotencyKey = "funding:" ++ t.userId ++ ":" ++ t.idempotencyKey := hk
      obtain ⟨hu, hk⟩ := key_inj hkey (hb.transfer t ht).key (hrow.symm.trans hk')
      exact ⟨t, ht, hu.symm, hk.symm⟩
  | debit w hw hmade =>
      have hk : r.idempotencyKey = w.debitData.idempotencyKey := by rw [hmade]; rfl
      unfold Withdrawal.debitData at hk
      split at hk
      · rw [String.append_assoc, String.append_assoc] at hk
        exact (different (by decide) (by decide) hk).elim
      · rw [String.append_assoc, String.append_assoc] at hk
        exact (different (by decide) (by decide) hk).elim
  | credit w hw _ hmade =>
      have hk : r.idempotencyKey = w.creditData.idempotencyKey := by rw [hmade]; rfl
      simp only [Withdrawal.creditData, String.append_assoc] at hk
      exact (different (by decide) (by decide) hk).elim
  | reversal w hw _ hmade =>
      have hk : r.idempotencyKey = w.reversalData.idempotencyKey := by rw [hmade]; rfl
      exact (different (by decide) (by decide) hk).elim

theorem find?_withdrawal_eq_none
    (hfresh : ∀ w ∈ d.withdrawals, ¬(w.userId = userId ∧ w.idempotencyKey = key)) :
    (Query.withdrawalByUserAndIdempotencyKey userId key).run d = none :=
  List.find?_eq_none.mpr fun w hw => by simpa using hfresh w hw

end Keys

/-! ### Withdrawals -/

namespace WithdrawalRepository

/-- Nothing but the values to be stored can be in the way of `executeP2p`. -/
structure ExecuteP2pWithdrawalData.Ready (data : ExecuteP2pWithdrawalData) (d : Db) : Prop where
  sender : ∃ x ∈ d.wallets, x.id = data.senderWalletId
  recipient : ∃ x ∈ d.wallets, x.id = data.destinationWalletId
  funds : data.amount ≤ sumSuccessfulBalance d data.senderWalletId
  key : isUuid4 data.idempotencyKey = true
  fresh : ∀ w ∈ d.withdrawals, ¬(w.userId = data.userId ∧ w.idempotencyKey = data.idempotencyKey)

/-- Nothing but the values to be stored can be in the way of `executeBankAccept`. -/
structure ExecuteBankWithdrawalData.Ready (data : ExecuteBankWithdrawalData) (d : Db) : Prop where
  wallet : ∃ x ∈ d.wallets, x.id = data.walletId
  funds : data.amount ≤ sumSuccessfulBalance d data.walletId
  key : isUuid4 data.idempotencyKey = true
  fresh : ∀ w ∈ d.withdrawals, ¬(w.userId = data.userId ∧ w.idempotencyKey = data.idempotencyKey)
  reference : ∀ w ∈ d.withdrawals, w.providerReference ≠ some data.providerReference

/-- The amount is stored in a row of the journal that belongs to the withdrawal. -/
def Journalled (d : Db) (w : Withdrawal) (walletId : String) (type : WalletTransactionType) (amount : ℤ) :
    Prop :=
  ∃ r ∈ d.walletTransactions, r.withdrawalId = some w.id ∧ r.walletId = walletId ∧ r.type = type ∧
    r.status = .successful ∧ r.amount = amount

/-- A withdrawal has been created, and it is committed with exactly the amount. -/
def ExecuteP2pWithdrawalData.Stored (data : ExecuteP2pWithdrawalData)
    (result : ExecuteWithdrawalResult) (d : Db) : Prop :=
  result.created = true ∧ result.withdrawal ∈ d.withdrawals ∧ result.withdrawal.userId = data.userId ∧
    result.withdrawal.idempotencyKey = data.idempotencyKey ∧ result.withdrawal.amount = data.amount ∧
    Journalled d result.withdrawal data.senderWalletId .debit data.amount ∧
    Journalled d result.withdrawal data.destinationWalletId .credit data.amount

def ExecuteBankWithdrawalData.Stored (data : ExecuteBankWithdrawalData)
    (result : ExecuteWithdrawalResult) (d : Db) : Prop :=
  result.created = true ∧ result.withdrawal ∈ d.withdrawals ∧ result.withdrawal.userId = data.userId ∧
    result.withdrawal.idempotencyKey = data.idempotencyKey ∧ result.withdrawal.amount = data.amount ∧
    Journalled d result.withdrawal data.walletId .debit data.amount

/-- The columns can hold the amount and the texts. -/
def Fits (amount : ℤ) (texts : List String) : Prop :=
  amount ≤ 2147483647 ∧ ∀ text ∈ texts, isColumnText text = true

instance (amount : ℤ) (texts : List String) : Decidable (Fits amount texts) :=
  inferInstanceAs (Decidable (amount ≤ 2147483647 ∧ ∀ text ∈ texts, isColumnText text = true))

/-- What is to be stored fits and the rows are committed, or it does not and the database
is left as it was. -/
def Processed (P : Platform) (config : Config) (fits : Prop) (d : Db) (Stored : ExecuteWithdrawalResult → Db → Prop) :
    Except Err ExecuteWithdrawalResult → World → Prop :=
  Sole.Ends (M := walletApi P config) (fun result u => fits ∧ Stored result u.db)
    fun e u => ¬fits ∧ (∃ code, e = .prisma code) ∧ u.db = d

/-- The same inside the transaction: the rows are in the buffer. -/
def Buffered (P : Platform) (config : Config) (i n : ℕ) (fits : Prop) (d : Db)
    (Stored : ExecuteWithdrawalResult → Db → Prop) : Except Err ExecuteWithdrawalResult → World → Prop :=
  Sole.Ends (M := walletApi P config)
    (fun result u => ∃ ws, fits ∧ Lone i n (some ws) d u ∧ Stored result (schema.applyAll ws d))
    fun e u => ¬fits ∧ (∃ code, e = .prisma code) ∧ Lone i n (some []) d u

theorem ExecuteP2pWithdrawalData.stored_final (data : ExecuteP2pWithdrawalData) (a b c : String × ℕ)
    (hid : Key.withdrawalId a.1 ∉ d.keys) :
    data.Stored ⟨data.final a b c, true⟩ (schema.applyAll (data.writes a b c) d) := by
  rw [data.applyAll_writes a b c hid]
  refine ⟨rfl, List.mem_append_right _ (.head _), rfl, rfl, rfl, ?_, ?_⟩
  · exact ⟨_, List.mem_append_right _ (.head _), rfl, rfl, rfl, rfl, rfl⟩
  · exact ⟨_, List.mem_append_right _ (.tail _ (.head _)), rfl, rfl, rfl, rfl, rfl⟩

/-- The two rows of a transfer between wallets have different keys. -/
theorem ExecuteP2pWithdrawalData.credit_ne_debit (data : ExecuteP2pWithdrawalData) {a b c : String × ℕ} :
    Key.walletTransactionIdempotencyKey (data.credit c.1).idempotencyKey ∉
      (Write.createWalletTransaction ((data.debit a.1).row b.1 b.2)).keys := by
  intro hk
  have heq := List.mem_singleton.mp (List.mem_of_ne_of_mem Key.noConfusion hk)
  have hkeys := Key.walletTransactionIdempotencyKey.inj heq
  simp only [ExecuteP2pWithdrawalData.credit, ExecuteP2pWithdrawalData.debit,
    CreateWalletTransactionData.row, String.append_assoc] at hkeys
  exact ne_of_keyStarts (by decide) (by decide) (by decide) hkeys

/-- So the credit is new after the withdrawal and the debit. -/
theorem ExecuteP2pWithdrawalData.creditKey_new (data : ExecuteP2pWithdrawalData) {w : Withdrawal}
    {a b c : String × ℕ}
    (h : Key.walletTransactionIdempotencyKey (data.credit c.1).idempotencyKey ∉ d.keys) :
    Key.walletTransactionIdempotencyKey (data.credit c.1).idempotencyKey ∉ Db.keys (schema.applyAll
      [.createWithdrawal w, .createWalletTransaction ((data.debit a.1).row b.1 b.2)] d) := by
  refine not_mem_applyAll h fun w' hw => ?_
  rcases List.mem_cons.mp hw with rfl | hw
  · exact rowKey_not_mem_withdrawal w _
  · rw [List.mem_singleton.mp hw]
    exact data.credit_ne_debit

/-- The transaction of `executeP2p`. -/
theorem calm_p2pTransaction {data : ExecuteP2pWithdrawalData} (hb : d.Books) (hready : data.Ready d)
    (hmin : 1 ≤ data.amount) (h : Lone i n (some []) d s) :
    Calmly P config i call (p2pTransaction data) (Buffered P config i n (Fits data.amount data.texts) d data.Stored) s := by
  have hrows := rowKeys_new hb hready.key hready.fresh
  refine Total.bind (calm_select_tx h (find?_withdrawal_eq_none hready.fresh) fun s₁ h₁ => ?_)
  refine Total.bind (calm_lockWalletRows h₁ (fun id hid => ?_) fun s₂ h₂ => ?_)
  · have hmem := (List.perm_insertionSort (· ≤ ·) _).mem_iff.mp hid
    rcases List.mem_cons.mp hmem with rfl | hmem
    · exact hready.sender
    · rw [List.mem_singleton.mp hmem]
      exact hready.recipient
  refine Total.bind (calm_balance h₂ fun s₃ h₃ => ?_)
  refine Total.bind (calm_throwIf (not_lt.mpr hready.funds) ?_)
  refine Total.bind (calm_defaults h₃ fun a s₄ htext ha h₄ => ?_)
  have hid : Key.withdrawalId a.1 ∉ d.keys := ha _ (.head _)
  have hcol : -2147483648 ≤ data.amount := by omega
  have hwithdrawal := data.storable_withdrawal (a := a) htext
  by_cases hfits : Fits data.amount data.texts
  · have hstorable {b c : String × ℕ} :=
      data.storable_writes (a := a) (b := b) (c := c) hcol hfits.1 hfits.2 htext
    refine Total.bind (calm_write_tx h₄ (hwithdrawal.mpr ⟨⟨hcol, hfits.1⟩, hfits.2⟩) rfl
      (fun k hk => ?_) fun s₅ h₅ => ?_)
    · have hnew : ∀ k ∈ (data.withdrawal a.1 a.2).keys, k ∉ d.keys :=
        Withdrawal.keys_new hid hready.fresh fun ref href => by cases href
      exact hnew k hk
    refine Total.bind (calm_insert h₅ (fun b hb => hstorable hb htext _ (.tail _ (.head _))) ?_
      fun b s₆ hb h₆ => ?_)
    · exact rowKey_new_after (hrows _ (.head _))
    refine Total.bind (calm_insert h₆ (fun c hc => hstorable hb hc _ (.tail _ (.tail _ (.head _)))) ?_
      fun c s₇ hc h₇ => ?_)
    · exact data.creditKey_new (hrows _ (.tail _ (.head _)))
    refine Total.bind (calm_write_tx h₇ (hstorable hb hc _ (.tail _ (.tail _ (.tail _ (.head _)))))
      (data.result_final a b c hid) (fun k hk => absurd hk List.not_mem_nil) fun s₈ h₈ => ?_)
    exact ⟨_, hfits, h₈, data.stored_final a b c hid⟩
  · refine Total.bind (calm_write_unstorable h₄ ?_ fun s₅ h₅ => ⟨hfits, ⟨_, rfl⟩, h₅⟩)
    rw [Bool.eq_false_iff]
    exact fun h => hfits ⟨(hwithdrawal.mp h).1.2, (hwithdrawal.mp h).2⟩

/-- What the two operations have in common: the transaction, and the `catch` around it. -/
theorem calm_accept {body : Program ExecuteWithdrawalResult} {fits : Prop}
    {Stored : ExecuteWithdrawalResult → Db → Prop} (h : Lone i n none d s)
    (hbody : ∀ t, Lone i n (some []) d t →
      Calmly P config i call body (Buffered P config i n fits d Stored) t) :
    Calmly P config i call (rethrowWalletMissing (transaction body)) (Processed P config fits d Stored) s := by
  have hends : Calmly P config i call (transaction body) (Processed P config fits d Stored) s := by
    refine calm_transaction h fun t ht => (hbody t ht).mono fun r u hr => ?_
    cases r with
    | ok result =>
        obtain ⟨ws, hfits, hu, hstored⟩ := hr
        exact ⟨ws, hu, fun v hv => ⟨hfits, hv.db ▸ hstored⟩⟩
    | error e =>
        obtain ⟨hfits, he, hu⟩ := hr
        exact ⟨⟨_, hu⟩, fun v hv => ⟨hfits, he, hv.db⟩⟩
  refine Total.tryCatch (hends.mono fun r u hr => ?_)
  cases r with
  | ok result => exact hr
  | error e =>
      obtain ⟨-, ⟨code, rfl⟩, -⟩ := id hr
      cases code <;> exact hr

/-- `executeP2p`, alone and in calm weather. -/
theorem calm_executeP2p {data : ExecuteP2pWithdrawalData} (hb : d.Books) (hready : data.Ready d)
    (hmin : 1 ≤ data.amount) (h : Lone i n none d s) :
    Calmly P config i call (executeP2p data) (Processed P config (Fits data.amount data.texts) d data.Stored) s := by
  refine Total.bind (calm_select_pool h (find?_withdrawal_eq_none hready.fresh) fun t ht => ?_)
  exact calm_accept ht fun u hu => calm_p2pTransaction hb hready hmin hu

/-! ### `executeBankAccept` -/

theorem ExecuteBankWithdrawalData.stored_final (data : ExecuteBankWithdrawalData) (a b : String × ℕ)
    (hid : Key.withdrawalId a.1 ∉ d.keys) :
    data.Stored ⟨data.final a b, true⟩ (schema.applyAll (data.writes a b) d) := by
  rw [data.applyAll_writes a b hid]
  refine ⟨rfl, List.mem_append_right _ (.head _), rfl, rfl, rfl, ?_⟩
  exact ⟨_, List.mem_append_right _ (.head _), rfl, rfl, rfl, rfl, rfl⟩

/-- The transaction of `executeBankAccept`. -/
theorem calm_bankTransaction {data : ExecuteBankWithdrawalData} (hb : d.Books) (hready : data.Ready d)
    (hmin : 1 ≤ data.amount) (h : Lone i n (some []) d s) :
    Calmly P config i call (bankTransaction data)
      (Buffered P config i n (Fits data.amount data.texts) d data.Stored) s := by
  have hrows := rowKeys_new hb hready.key hready.fresh
  refine Total.bind (calm_select_tx h (find?_withdrawal_eq_none hready.fresh) fun s₁ h₁ => ?_)
  refine Total.bind (calm_lockWalletRow h₁ hready.wallet fun s₂ h₂ => ?_)
  refine Total.bind (calm_balance h₂ fun s₃ h₃ => ?_)
  refine Total.bind (calm_throwIf (not_lt.mpr hready.funds) ?_)
  refine Total.bind (calm_defaults h₃ fun a s₄ htext ha h₄ => ?_)
  have hid : Key.withdrawalId a.1 ∉ d.keys := ha _ (.head _)
  have hcol : -2147483648 ≤ data.amount := by omega
  have hwithdrawal := data.storable_withdrawal (a := a) htext
  by_cases hfits : Fits data.amount data.texts
  · have hstorable {b : String × ℕ} :=
      data.storable_writes (a := a) (b := b) hcol hfits.1 hfits.2 htext
    refine Total.bind (calm_write_tx h₄ (hwithdrawal.mpr ⟨⟨hcol, hfits.1⟩, hfits.2⟩) rfl
      (fun k hk => ?_) fun s₅ h₅ => ?_)
    · have hnew : ∀ k ∈ (data.withdrawal a.1 a.2).keys, k ∉ d.keys :=
        Withdrawal.keys_new hid hready.fresh fun ref href => by
          cases href
          exact hready.reference
      exact hnew k hk
    refine Total.bind (calm_insert h₅ (fun b hb => hstorable hb _ (.tail _ (.head _))) ?_
      fun b s₆ hb h₆ => ?_)
    · exact rowKey_new_after (hrows _ (.tail _ (.tail _ (.head _))))
    refine Total.bind (calm_write_tx h₆ (hstorable hb _ (.tail _ (.tail _ (.head _))))
      (data.result_final a b hid) (fun k hk => absurd hk List.not_mem_nil) fun s₇ h₇ => ?_)
    exact ⟨_, hfits, h₇, data.stored_final a b hid⟩
  · refine Total.bind (calm_write_unstorable h₄ ?_ fun s₅ h₅ => ⟨hfits, ⟨_, rfl⟩, h₅⟩)
    rw [Bool.eq_false_iff]
    exact fun h => hfits ⟨(hwithdrawal.mp h).1.2, (hwithdrawal.mp h).2⟩

/-- `executeBankAccept`, alone and in calm weather. -/
theorem calm_executeBankAccept {data : ExecuteBankWithdrawalData} (hb : d.Books)
    (hready : data.Ready d) (hmin : 1 ≤ data.amount) (h : Lone i n none d s) :
    Calmly P config i call (executeBankAccept data)
      (Processed P config (Fits data.amount data.texts) d data.Stored) s := by
  refine Total.bind (calm_select_pool h (find?_withdrawal_eq_none hready.fresh) fun t ht => ?_)
  exact calm_accept ht fun u hu => calm_bankTransaction hb hready hmin hu

end WithdrawalRepository

/-! ### The check of the PIN -/

/-- Only users have been updated. -/
structure Db.SameMoney (d d' : Db) : Prop where
  wallets : d'.wallets = d.wallets
  transfers : d'.transfers = d.transfers
  walletTransactions : d'.walletTransactions = d.walletTransactions
  user : ∀ id, (d'.user id).isSome = (d.user id).isSome
  identified : d.Identified → d'.Identified

theorem Db.SameMoney.refl (d : Db) : d.SameMoney d := ⟨rfl, rfl, rfl, fun _ => rfl, id⟩

theorem Db.SameMoney.trans {d d' d'' : Db} (h : d.SameMoney d') (h' : d'.SameMoney d'') :
    d.SameMoney d'' :=
  ⟨h'.wallets.trans h.wallets, h'.transfers.trans h.transfers,
    h'.walletTransactions.trans h.walletTransactions, fun id => (h'.user id).trans (h.user id),
    h'.identified ∘ h.identified⟩

theorem Db.SameMoney.updateUser (d : Db) (id : String) (data : UserUpdate) :
    d.SameMoney ((Write.updateUser id data).apply d) := by
  refine ⟨rfl, rfl, rfl, fun id' => ?_, fun h => h.updateUser id data⟩
  rw [Db.user_update]
  split
  · exact Option.isSome_map
  · rfl

/-- The PIN is right, and no lock is in force at the time `n`. -/
structure PinAccepted (P : Platform) (d : Db) (n : ℕ) (userId pin : String) (user : User) : Prop where
  row : d.user userId = some user
  set : truthy user.pinHash = true
  right : P.bcryptCompare pin (user.pinHash.getD "") = true
  unlocked : ∀ lockedUntil, user.pinLockedUntil = some lockedUntil → lockedUntil ≤ n

/-- The check has been passed. -/
def PinPassed (i n : ℕ) (d : Db) (r : Except Err Unit) (s : World) : Prop :=
  r = .ok () ∧ ∃ d', d.SameMoney d' ∧ Lone i n none d' s

section Pins

variable {user : User} {userId pin : String}

/-- The user whose PIN is checked is there, whatever the check writes. -/
theorem calm_resetPinFailures {Q : Except Err User → World → Prop}
    (huser : (d.user userId).isSome) (h : Lone i n none d s)
    (hQ : ∀ row t d', d.SameMoney d' → Lone i n none d' t → Q (.ok row) t) :
    Calmly P config i call (UserRepository.resetPinFailures userId) Q s := by
  obtain ⟨row, hrow⟩ := Option.isSome_iff_exists.mp huser
  refine calm_write_pool h (by rfl) (congrArg (Option.map _) hrow) (fun k hk => absurd hk List.not_mem_nil) fun t ht => ?_
  exact hQ _ t _ (.updateUser ..) ht

/-- The comparison, after a lock that has run out was lifted. -/
theorem calm_compare {secret hash message : String} {tries : ℕ} (huser : (d.user userId).isSome)
    (hright : P.bcryptCompare secret hash = true) (h : Lone i n none d s)
    {record : ℕ → Option ℕ → Program User} :
    Calmly P config i call
      (AuthCredentialService.checkSecret.compare secret hash (UserRepository.resetPinFailures userId)
        record message tries none) (PinPassed i n d) s := by
  refine Total.bind (Total.ret (Total.bind (calm_bcryptCompare h fun t ht => ?_)))
  rw [hright]
  show Calmly P config i call (if _ then _ else _) _ _
  by_cases hreset : 0 < tries ∨ (none : Option ℕ).isSome
  · rw [if_pos hreset]
    refine Total.bind (calm_resetPinFailures huser ht fun _ u d' hd' hu => ?_)
    exact ⟨rfl, d', hd', hu⟩
  · rw [if_neg hreset]
    exact ⟨rfl, d, .refl d, ht⟩

theorem calm_verifyPin (hpin : PinAccepted P d n userId pin user) (h : Lone i n none d s) :
    Calmly P config i call (AuthService.verifyPin userId pin) (PinPassed i n d) s := by
  have hid : user.id = userId := by simpa using List.find?_some hpin.row
  subst hid
  have huser : (d.user user.id).isSome := by rw [hpin.row]; rfl
  refine Total.bind (calm_select_pool h hpin.row fun t ht => ?_)
  refine Total.bind (Total.ret (Total.bind (calm_throwIf (by simp [hpin.set]) ?_)))
  unfold AuthCredentialService.checkSecret
  cases hlocked : user.pinLockedUntil with
  | none => exact Total.bind (Total.ret (calm_compare huser hpin.right ht))
  | some lockedUntil =>
      refine Total.bind (Total.bind (calm_now ht fun now u hnow hu => ?_))
      have hexpired : decide (lockedUntil ≤ now) = true :=
        decide_eq_true ((hpin.unlocked lockedUntil hlocked).trans hnow)
      refine Total.ret ?_
      rw [hexpired]
      -- The lock has run out, so it is lifted first.
      refine Total.bind (calm_resetPinFailures huser hu fun _ v d' hd' hv => ?_)
      refine (calm_compare ((hd'.user _).trans huser) hpin.right hv).mono fun r w hr => ?_
      obtain ⟨hr, d'', hd'', hw⟩ := hr
      exact ⟨hr, d'', hd'.trans hd'', hw⟩

end Pins

/-! ### Transfers -/

/-- The transfer of the request is stored with the amount, and so is the credit that
waits for its money. -/
def TransferStored (amount : ℤ) (userId key : String) (d : Db) : Prop :=
  ∃ t ∈ d.transfers, t.userId = userId ∧ t.idempotencyKey = key ∧ t.amount = amount ∧
    ∃ r ∈ d.walletTransactions, r.transferId = some t.id ∧ r.walletId = t.walletId ∧
      r.type = .credit ∧ r.amount = amount

theorem TransferStored.updateTransfer {amount : ℤ} {userId key : String}
    (h : TransferStored amount userId key d) (id : String) (data : UpdateTransferData) :
    TransferStored amount userId key ((Write.updateTransfer id data).apply d) := by
  obtain ⟨t, ht, hu, hk, ha, r, hr, hid, hwallet, hrest⟩ := h
  refine ⟨_, List.mem_map.mpr ⟨t, ht, rfl⟩, ?_⟩
  split
  · exact ⟨hu, hk, ha, r, hr, hid, hwallet, hrest⟩
  · exact ⟨hu, hk, ha, r, hr, hid, hwallet, hrest⟩

/-- The amount fits and the rows are committed, whatever the provider says, or it
does not and no row has been added. -/
def TransferProcessed {α : Type} (amount : ℤ) (userId key : String) (d : Db) (r : Except Err α)
    (s : World) : Prop :=
  (amount ≤ 2147483647 ∧ TransferStored amount userId key s.db ∧
      r ≠ .error (.prisma .valueOutOfRange)) ∨
    (2147483647 < amount ∧ r = .error (.prisma .valueOutOfRange) ∧ s.db.transfers = d.transfers ∧
      s.db.walletTransactions = d.walletTransactions)

section Transfers

variable {userId key : String}

/-- A pending credit of a new key, posted by itself. -/
theorem calm_postCreditPending {input : PostCreditPendingInput} {x : Wallet}
    {Q : Except Err LedgerWriteResult → World → Prop} (h : Lone i n none d s) (hmin : 0 < input.amount)
    (hmax : input.amount ≤ 2147483647)
    (htexts : ∀ text ∈ input.data.texts, isColumnText text = true) (hx : x ∈ d.wallets) (hid : x.id = input.walletId)
    (hnew : ∀ r ∈ d.walletTransactions, r.idempotencyKey ≠ input.idempotencyKey)
    (hQ : ∀ (stamp : String × ℕ) t,
      Lone i n none ((Write.createWalletTransaction (input.data.row stamp.1 stamp.2)).apply d) t →
      Q (.ok ⟨input.data.row stamp.1 stamp.2, true, none⟩) t) :
    Calmly P config i call (WalletLedgerService.postCreditPending input) Q s := by
  have hnone : (Query.walletTransactionByIdempotencyKey input.idempotencyKey).run d = none :=
    List.find?_eq_none.mpr fun r hr => by simpa using hnew r hr
  refine Total.bind (calm_throwIf (not_le.mpr hmin) ?_)
  refine Total.bind (calm_select_pool h hnone fun s₁ h₁ => ?_)
  refine calm_transaction h₁ fun s₂ h₂ => ?_
  refine Total.bind (calm_lockWalletRow h₂ ⟨x, hx, hid⟩ fun s₃ h₃ => ?_)
  refine Total.bind (calm_select_tx h₃ hnone fun s₄ h₄ => ?_)
  refine Total.bind (calm_insert h₄ (fun stamp hstamp => CreateWalletTransactionData.storable_row (by
    show -2147483648 ≤ input.amount
    omega) hmax htexts hstamp) ?_ fun stamp s₅ _ h₅ => ?_)
  · refine not_mem_applyAll ?_ fun w hw => absurd hw List.not_mem_nil
    rw [mem_keys_walletTransactionIdempotencyKey]
    rintro ⟨r, hr, hrkey⟩
    exact hnew r hr hrkey
  · exact ⟨_, h₅, hQ stamp⟩

/-- A transfer that has not been asked for before. -/
theorem calm_open {actor : JwtPayloadUser} {amount : ℤ} {currency bodyHash : String} {x : Wallet}
    (h : Lone i n none d s) (hmin : 0 < amount) (hids : d.Identified)
    (htexts : ∀ text ∈ [currency, key, bodyHash], isColumnText text = true)
    (hx : x ∈ d.wallets) (hxuser : x.userId = actor.userId) (huser : (d.user actor.userId).isSome)
    (hfresh : ∀ t ∈ d.transfers, ¬(t.userId = actor.userId ∧ t.idempotencyKey = key))
    (hrow : ∀ r ∈ d.walletTransactions,
      r.idempotencyKey ≠ "funding:" ++ actor.userId ++ ":" ++ key) :
    Calmly P config i call
      (TransferCreateService.open' config actor amount currency key bodyHash)
      (TransferProcessed amount actor.userId key d) s := by
  obtain ⟨wallet, hwallet⟩ : ∃ wallet, (Query.walletByUserId actor.userId).run d = some wallet :=
    Option.isSome_iff_exists.mp (List.find?_isSome.mpr ⟨x, hx, decide_eq_true hxuser⟩)
  obtain ⟨user, huser⟩ := Option.isSome_iff_exists.mp huser
  have hmem : wallet ∈ d.wallets := List.mem_of_find?_eq_some hwallet
  refine Total.bind (calm_select_pool h hwallet fun s₁ h₁ => Total.bind (Total.ret ?_))
  refine Total.bind (calm_select_pool h₁ huser fun s₂ h₂ => Total.bind (Total.ret ?_))
  have hid : user.id = actor.userId := by simpa using List.find?_some huser
  have huserText : isColumnText actor.userId = true :=
    hid ▸ hids.users user (List.mem_of_find?_eq_some huser)
  have hwalletText := hids.wallets wallet hmem
  simp only [List.forall_mem_cons] at htexts
  obtain ⟨hcurrency, hkey, hhash, -⟩ := htexts
  refine Total.bind (Total.bind (calm_randomUUID h₂ fun uuid s₃ huuid h₃ => ?_))
  obtain ⟨huuidText, huuid⟩ := huuid
  have hrefText : isColumnText ("fund_" ++ sliceEight actor.userId ++ "_" ++ withoutDashes uuid) =
      true := by
    have hstarts : isColumnText "fund_" = true ∧ isColumnText "_" = true := by decide
    simp [isColumnText_append, isColumnText_sliceEight huserText,
      isColumnText_withoutDashes huuidText, hstarts]
  refine Total.ret (Total.bind (Total.bind (calm_defaults h₃ fun a s₄ htext ha h₄ => ?_)))
  by_cases hmax : amount ≤ 2147483647
  · refine calm_write_pool h₄ (Write.storable_iff.mpr ⟨decide_eq_true ⟨?_, hmax⟩, ?_⟩) rfl
      (fun k hk => ?_) fun s₅ h₅ => ?_
    · show -2147483648 ≤ amount
      omega
    · simp only [Write.texts, Option.toList_none, List.append_nil, List.forall_mem_cons]
      exact ⟨htext, huserText, hwalletText, hcurrency, hrefText, hkey, hhash,
        fun _ h => absurd h List.not_mem_nil⟩
    · rcases List.mem_cons.mp hk with rfl | hk
      · exact ha _ (.tail _ (.tail _ (.head _)))
      · rcases List.mem_cons.mp hk with rfl | hk
        · rw [mem_keys_transferIdempotencyKey]
          rintro ⟨t, ht, hboth⟩
          exact hfresh t ht hboth
        · rw [List.mem_singleton.mp hk, ← h₂.db]
          exact huuid _
    refine Total.bind (calm_postCreditPending h₅ hmin hmax ?_ hmem rfl hrow fun b s₆ h₆ => ?_)
    · have hstarts : isColumnText "funding:" = true ∧ isColumnText ":" = true := by decide
      simp [CreateWalletTransactionData.texts, PostCreditPendingInput.data,
        TransferCreateService.pendingCredit, isColumnText_append, *]
    have hstored : TransferStored amount actor.userId key s₆.db := by
      rw [h₆.db]
      exact ⟨_, List.mem_append_right _ (.head _), rfl, rfl, rfl, _,
        List.mem_append_right _ (.head _), rfl, rfl, rfl, rfl⟩
    refine Total.bind (calm_initiatePayment h₆ fun r s₇ hr h₇ => ?_)
    cases r with
    | error e =>
        refine .inl ⟨hmax, by rw [h₇.db, ← h₆.db]; exact hstored, fun he => hr .valueOutOfRange ?_⟩
        exact congrArg Except.error (Except.error.inj he)
    | ok payment =>
        refine Total.bind (calm_orThrow ?_ fun checkoutUrl _ => ?_)
        · exact .inl ⟨hmax, by rw [h₇.db, ← h₆.db]; exact hstored, fun h => by cases h⟩
        -- The transfer that has just been stored is found again.
        have hfound (data : UpdateTransferData) :
            ((Write.updateTransfer a.1 data).result s₆.db).isSome := by
          obtain ⟨t, ht, hid⟩ : ∃ t ∈ s₆.db.transfers, t.id = a.1 := by
            rw [h₆.db]
            exact ⟨_, List.mem_append_right _ (.head _), rfl⟩
          exact Option.isSome_map.trans (List.find?_isSome.mpr ⟨t, ht, decide_eq_true hid⟩)
        obtain ⟨row, hrow⟩ := Option.isSome_iff_exists.mp (hfound
          { status := some .pending
            checkoutUrl := some (some checkoutUrl)
            flutterwaveId := some payment.providerPaymentId })
        rw [h₆.db] at hrow
        cases hlink : Write.storable (.updateTransfer a.1
            { status := some .pending
              checkoutUrl := some (some checkoutUrl)
              flutterwaveId := some payment.providerPaymentId }) with
        | true =>
            refine Total.bind (calm_write_pool h₇ hlink hrow
              (fun k hk => absurd hk List.not_mem_nil) fun s₈ h₈ => ?_)
            refine .inl ⟨hmax, ?_, fun he => by cases he⟩
            rw [h₈.db, ← h₆.db]
            exact hstored.updateTransfer _ _
        | false =>
            refine Total.bind (calm_write_unstorable h₇ hlink fun s₈ h₈ => ?_)
            refine .inl ⟨hmax, ?_, fun he => by cases he⟩
            rw [h₈.db, ← h₆.db]
            exact hstored
  · have hrange {row : Transfer} (hrow : row.amount = amount) :
        (Write.createTransfer row).inRange = false :=
      decide_eq_false fun hcol => hmax (hrow ▸ hcol.2)
    refine calm_write_unstorable h₄ (by rw [Write.storable, hrange rfl]; rfl) fun s₅ h₅ => ?_
    rw [hrange rfl]
    exact .inr ⟨not_le.mp hmax, rfl, by rw [h₅.db], by rw [h₅.db]⟩

theorem calm_requireNgn {currency : Option String} {Q : Except Err String → World → Prop}
    (h : P.toUpperCase (currency.getD "NGN") = "NGN") (hQ : Q (.ok "NGN") s) :
    Calmly P config i call (requireNgn P currency) Q s := by
  refine Total.bind (calm_throwIf (not_not.mpr h) (Total.ret ?_))
  rw [h]
  exact hQ

/-- Nothing but the amount can be in the way of the request. -/
structure CreateTransferDto.Ready (P : Platform) (actor : JwtPayloadUser) (header : Option String)
    (dto : CreateTransferDto) (key : String) (user : User) (d : Db) (n : ℕ) : Prop where
  header : requireIdempotencyKey header = .ok key
  currency : P.toUpperCase (dto.currency.getD "NGN") = "NGN"
  pin : PinAccepted P d n actor.userId dto.pin user
  wallet : ∃ x ∈ d.wallets, x.userId = actor.userId
  /-- A digest is a text of hexadecimal digits. -/
  digest : isColumnText (hashRequestBody P (TransferCreateService.body dto.amount "NGN")) = true
  fresh : ∀ t ∈ d.transfers, ¬(t.userId = actor.userId ∧ t.idempotencyKey = key)

/-- A request for a transfer, alone and in calm weather. -/
theorem calm_postTransfers {actor : JwtPayloadUser} {header : Option String} {dto : CreateTransferDto}
    {user : User} (hb : d.Books) (hids : d.Identified)
    (hready : dto.Ready P actor header key user d n)
    (h : Lone i n none d s) :
    Calmly P config i call (program P config (.postTransfers actor header dto))
      (TransferProcessed dto.amount actor.userId key d) s := by
  obtain ⟨x, hx, hxuser⟩ := hready.wallet
  have hrow : ∀ r ∈ d.walletTransactions,
      r.idempotencyKey ≠ "funding:" ++ actor.userId ++ ":" ++ key := by
    intro r hr hrkey
    obtain ⟨t, ht, hboth⟩ :=
      exists_transfer_of_rowKey hb (isUuid4_of_requireIdempotencyKey hready.header) hr hrkey
    exact hready.fresh t ht hboth
  show Calmly P config i call (ofExcept (requireIdempotencyKey header) >>= _) _ _
  rw [hready.header]
  refine Total.bind (Total.ret (Total.map (Total.seq (calm_verifyPin hready.pin h)
    (fun _ t ht => ?_) fun e t he => by cases he.1)))
  obtain ⟨-, d', hd', ht⟩ := ht
  refine Total.bind (calm_requireNgn hready.currency ?_)
  have hnone : (Query.transferByUserAndIdempotencyKey actor.userId key).run d' = none :=
    List.find?_eq_none.mpr fun t ht => by simpa using hready.fresh t (hd'.transfers ▸ ht)
  dsimp only [Sole.Ends]
  refine Total.bind (calm_select_pool ht hnone fun s₁ h₁ => ?_)
  have hmin : 0 < dto.amount := lt_of_lt_of_le (by decide) dto.amount_min
  have huser : (d'.user actor.userId).isSome := by rw [hd'.user, hready.pin.row]; rfl
  rw [← hd'.walletTransactions] at hrow
  dsimp only [Sole.Ends]
  have hkey := isColumnText_of_isUuid4 (isUuid4_of_requireIdempotencyKey hready.header)
  have hngn : isColumnText "NGN" = true := by decide
  refine Total.mono (calm_open h₁ hmin (hd'.identified hids)
    (by simp [hngn, hkey, hready.digest]) (hd'.wallets ▸ hx) hxuser huser
    (hd'.transfers ▸ hready.fresh) hrow) fun r u hr => ?_
  rcases hr with ⟨hmax, hstored, hne⟩ | ⟨hmax, rfl, htransfers, hrows⟩
  · refine .inl ⟨hmax, hstored, fun hr => hne ?_⟩
    cases r with
    | ok a => cases hr
    | error e => exact congrArg Except.error (Except.error.inj hr)
  · exact .inr ⟨hmax, rfl, htransfers.trans hd'.transfers, hrows.trans hd'.walletTransactions⟩

end Transfers

/-! ### The result -/

/-- The call returns a withdrawal that is stored. -/
def Executed (Stored : ExecuteWithdrawalResult → Db → Prop) (r : Except Err Response) (s : World) : Prop :=
  ∃ result, r = .ok (.executed result) ∧ Stored result s.db

/-- The transfer is stored, and no value has left the range of its column. -/
def Funded (amount : ℤ) (userId key : String) (r : Except Err Response) (s : World) : Prop :=
  TransferStored amount userId key s.db ∧ r ≠ .error (.prisma .valueOutOfRange)

/-- The database turns the call down. -/
def Rejected (r : Except Err Response) (_ : World) : Prop := ∃ code, r = .error (.prisma code)

/-- The call fails because a value has left the range of its column. -/
def OutOfRange (r : Except Err Response) (_ : World) : Prop := r = .error (.prisma .valueOutOfRange)

/-- Nobody has a transaction open. -/
def Undisturbed (s : World) : Prop := ∀ j, s.store.opened j = none

section Runs

variable {cfg : Machine.Config (walletApi P config)}

theorem lone_of_reachable (h : Reachable (requests P config) World.initial cfg)
    (hquiet : Undisturbed cfg.state) (i : ℕ) :
    Lone i (World.clock cfg.state) none (World.db cfg.state) cfg.state :=
  ⟨((api_certified P config _ .true).inv h).1, fun j _ => hquiet j, hquiet i, rfl, le_rfl⟩

/-- How a withdrawal ends. -/
theorem serves_of_processed {fits : Prop} {Stored : ExecuteWithdrawalResult → Db → Prop}
    {p : Program ExecuteWithdrawalResult} (hp : program P config call = .executed <$> p)
    (h : Calmly P config i call p (Processed P config fits (World.db cfg.state) Stored) cfg.state) :
    Serves (calmly P config) i call cfg fun r s =>
      fits ∧ Executed Stored r s ∨ ¬fits ∧ Rejected r s := by
  have hprogram : Calmly P config i call (program P config call) (fun r s =>
      fits ∧ Executed Stored r s ∨ ¬fits ∧ Rejected r s) cfg.state := by
    rw [hp]
    refine Total.map (h.mono fun r s hr => ?_)
    cases r with
    | ok result => exact .inl ⟨hr.1, result, rfl, hr.2⟩
    | error e =>
        obtain ⟨hfits, ⟨code, rfl⟩, -⟩ := hr
        exact .inr ⟨hfits, code, rfl⟩
  exact Total.serves hprogram

/-- How a request for a transfer ends. -/
theorem serves_postTransfers (h : Reachable (requests P config) World.initial cfg)
    (hquiet : Undisturbed cfg.state) {actor : JwtPayloadUser} {header : Option String}
    {dto : CreateTransferDto} {key : String} {user : User}
    (hready : dto.Ready P actor header key user (World.db cfg.state) (World.clock cfg.state)) :
    Serves (calmly P config) i (.postTransfers actor header dto) cfg fun r s =>
      dto.amount ≤ 2147483647 ∧ Funded dto.amount actor.userId key r s ∨
        ¬dto.amount ≤ 2147483647 ∧ OutOfRange r s := by
  refine Total.serves (Total.mono (calm_postTransfers (books_of_reachable h).2.1
    (identified_of_reachable (fun _ hcall => hcall) h) hready (lone_of_reachable h hquiet i)) fun r s hr => ?_)
  rcases hr with ⟨hmax, hstored, hne⟩ | ⟨hmax, hr, -⟩
  · exact .inl ⟨hmax, hstored, hne⟩
  · exact .inr ⟨not_le.mpr hmax, hr⟩

theorem not_rejected_of_executed {Stored : ExecuteWithdrawalResult → Db → Prop}
    {r : Except Err Response} {s : World} (h : Executed Stored r s) : ¬Rejected r s := by
  obtain ⟨result, rfl, -⟩ := h
  rintro ⟨code, he⟩
  cases he

/-- A request that the validation admits and that nothing else is in the way of is
processed with exactly its amount if and only if the amount fits an `INTEGER` and, in a
withdrawal, the texts of the request fit their columns. -/
theorem admitted_amount_processed_iff (h : Reachable (requests P config) World.initial cfg)
    (hquiet : Undisturbed cfg.state) (hi : cfg.threads i = none) :
    (∀ (dto : CreateWithdrawalDto) (data : ExecuteP2pWithdrawalData), data.amount = dto.amount →
      data.Ready (World.db cfg.state) →
      (Serves (calmly P config) i (.executeP2p data) cfg (Executed data.Stored) ↔
        dto.amount ≤ 2147483647 ∧ ∀ text ∈ data.texts, isColumnText text = true)) ∧
    (∀ (dto : CreateWithdrawalDto) (data : ExecuteBankWithdrawalData), data.amount = dto.amount →
      data.Ready (World.db cfg.state) →
      (Serves (calmly P config) i (.executeBankAccept data) cfg (Executed data.Stored) ↔
        dto.amount ≤ 2147483647 ∧ ∀ text ∈ data.texts, isColumnText text = true)) ∧
    ∀ (actor : JwtPayloadUser) (header : Option String) (dto : CreateTransferDto) (key : String)
      (user : User),
      dto.Ready P actor header key user (World.db cfg.state) (World.clock cfg.state) →
      (Serves (calmly P config) i (.postTransfers actor header dto) cfg
          (Funded dto.amount actor.userId key) ↔ dto.amount ≤ 2147483647) := by
  have hb := (books_of_reachable h).2.1
  have hlone := lone_of_reachable h hquiet i
  refine ⟨fun dto data hamount hready => ?_, fun dto data hamount hready => ?_,
    fun actor header dto key user hready => ?_⟩
  · rw [← hamount]
    refine (serves_of_processed rfl (calm_executeP2p hb hready ?_ hlone)).iff hi
      fun _ _ => not_rejected_of_executed
    rw [hamount]
    exact dto.amount_min
  · rw [← hamount]
    refine (serves_of_processed rfl (calm_executeBankAccept hb hready ?_ hlone)).iff hi
      fun _ _ => not_rejected_of_executed
    rw [hamount]
    exact dto.amount_min
  · exact (serves_postTransfers h hquiet hready).iff hi fun _ _ hfunded hr => hfunded.2 hr

end Runs

/-! ### Runs -/

section Schedules

open Schedule

/-- The thread that an action is about. -/
def actingThread {M : Machine} : Action M → ℕ
  | .spawn i _ | .step i _ | .crash i => i

/-- A thread that does not act opens no transaction. -/
theorem opened_of_replay {A : Assumptions (walletApi P config)} [DecidablePred A.admits]
    [∀ call i c ch s, Decidable (A.allows call i c ch s)] {j : ℕ}
    {as : List (Action (walletApi P config))} :
    ∀ {cfg cfg' : Machine.Config (walletApi P config)}, replayUnder A cfg as = some cfg' →
      (∀ a ∈ as, actingThread a ≠ j) →
      (World.store cfg'.state).opened j = (World.store cfg.state).opened j := by
  induction as with
  | nil =>
      intro cfg cfg' h _
      cases h
      rfl
  | cons a as ih =>
      intro cfg cfg' h hj
      obtain ⟨mid, hmid, hrest⟩ : ∃ mid, replayUnder A cfg [a] = some mid ∧
          replayUnder A mid as = some cfg' := by
        rw [← List.singleton_append, replayUnder_append] at h
        exact Option.bind_eq_some_iff.mp h
      rw [ih hrest fun b hb => hj b (.tail _ hb)]
      have ha := hj a (.head _)
      obtain ⟨-, hn⟩ := replayUnder_single hmid
      cases a with
      | spawn i call =>
          obtain ⟨-, rfl⟩ := next_spawn_iff.mp hn
          rfl
      | step i ch =>
          obtain ⟨call, c, k, r, t, -, he, rfl⟩ := next_step_iff.mp hn
          exact (exec_store he).owned.opened (Ne.symm ha)
      | crash i =>
          obtain ⟨call, p, -, rfl⟩ := next_crash_iff.mp hn
          exact (Store.Owned.release i _).opened (Ne.symm ha)

/-- At the end of a schedule it is enough to look at the threads that it is about. -/
theorem undisturbed_of_replay {n : ℕ} {as : List (Action (walletApi P config))}
    {cfg : Machine.Config (walletApi P config)}
    (h : replayUnder (requests P config) (.initial World.initial) as = some cfg)
    (hactors : as.all (actingThread · < n) = true)
    (hopened : (List.range n).all (fun j => ((World.store cfg.state).opened j).isNone) = true) :
    Undisturbed cfg.state := by
  intro j
  by_cases hj : j < n
  · exact Option.isNone_iff_eq_none.mp (List.all_eq_true.mp hopened j (List.mem_range.mpr hj))
  · refine opened_of_replay h fun a ha heq => hj ?_
    rw [← heq]
    exact of_decide_eq_true (List.all_eq_true.mp hactors a ha)

theorem isDigits_pin : isDigits 4 "1234" = true := by decide

/-- A request for a transfer of the amount. -/
def transferOf (amount : ℤ) (hmin : 100 ≤ amount) (hmax : amount ≤ 5000000000) : CreateTransferDto where
  amount := amount
  pin := "1234"
  amount_min := hmin
  amount_max := hmax
  pin_digits := isDigits_pin

/-- Three thousand million kobo, which the validation admits. -/
def hugeTransfer : CreateTransferDto := transferOf 3000000000 (by decide) (by decide)

/-- What Ada may ask for at the end of `fundedAda`. -/
def adaSends : ExecuteP2pWithdrawalData where
  userId := "u1"
  senderWalletId := "w1"
  destinationWalletId := "w2"
  amount := 400
  currency := "NGN"
  idempotencyKey := secondKey
  requestBodyHash := "hash"

def adaWithdraws : ExecuteBankWithdrawalData where
  userId := "u1"
  walletId := "w1"
  amount := 300
  currency := "NGN"
  bankCode := "044"
  accountNumber := "0690000999"
  accountName := "Ada"
  providerReference := "wd_u1_x"
  idempotencyKey := secondKey
  requestBodyHash := "hash"

def adaFunds : CreateTransferDto := transferOf 2500 (by decide) (by decide)

/-- The row of Ada's user at the end of `fundedAda`. -/
def adaRow : User where
  id := "u1"
  email := "ada"
  username := "ada"
  firstName := "ada"
  lastName := "ada"
  passwordHash := "password"
  passwordTryCount := 0
  passwordLockedUntil := none
  pinHash := some "1234"
  pinTryCount := 0
  pinLockedUntil := none

instance (data : ExecuteP2pWithdrawalData) (d : Db) : Decidable (data.Ready d) :=
  decidable_of_iff
    ((∃ x ∈ d.wallets, x.id = data.senderWalletId) ∧
      (∃ x ∈ d.wallets, x.id = data.destinationWalletId) ∧
      data.amount ≤ sumSuccessfulBalance d data.senderWalletId ∧
      isUuid4 data.idempotencyKey = true ∧
      ∀ w ∈ d.withdrawals, ¬(w.userId = data.userId ∧ w.idempotencyKey = data.idempotencyKey))
    ⟨fun h => ⟨h.1, h.2.1, h.2.2.1, h.2.2.2.1, h.2.2.2.2⟩,
      fun h => ⟨h.sender, h.recipient, h.funds, h.key, h.fresh⟩⟩

instance (data : ExecuteBankWithdrawalData) (d : Db) : Decidable (data.Ready d) :=
  decidable_of_iff
    ((∃ x ∈ d.wallets, x.id = data.walletId) ∧
      data.amount ≤ sumSuccessfulBalance d data.walletId ∧ isUuid4 data.idempotencyKey = true ∧
      (∀ w ∈ d.withdrawals, ¬(w.userId = data.userId ∧ w.idempotencyKey = data.idempotencyKey)) ∧
      ∀ w ∈ d.withdrawals, w.providerReference ≠ some data.providerReference)
    ⟨fun h => ⟨h.1, h.2.1, h.2.2.1, h.2.2.2.1, h.2.2.2.2⟩,
      fun h => ⟨h.wallet, h.funds, h.key, h.fresh, h.reference⟩⟩

/-- The same for a request of Ada's for a transfer. -/
theorem transferReady {dto : CreateTransferDto} {d : Db} {n : ℕ} {key : String}
    (hdto : dto.pin = "1234" ∧ dto.currency = none ∧
      isColumnText (hashRequestBody platform (TransferCreateService.body dto.amount "NGN")) = true)
    (hkey : requireIdempotencyKey (some key) = .ok key)
    (huser : d.user "u1" = some adaRow) (hwallet : ∃ x ∈ d.wallets, x.userId = "u1")
    (hfresh : ∀ t ∈ d.transfers, ¬(t.userId = "u1" ∧ t.idempotencyKey = key)) :
    dto.Ready platform ⟨"u1"⟩ (some key) key adaRow d n where
  header := hkey
  currency := by
    rw [hdto.2.1]
    decide +kernel
  pin :=
    { row := huser
      set := by decide
      right := by
        rw [hdto.1]
        decide
      unlocked := nofun }
  wallet := hwallet
  digest := hdto.2.2
  fresh := hfresh

/-- At the end of `fundedAda` nothing but an amount can be in Ada's way. -/
theorem fundedAda_ready :
    ∃ cfg, replayUnder (requests platform mockConfig) (.initial World.initial) fundedAda = some cfg ∧
      Undisturbed cfg.state ∧ cfg.threads 6 = none ∧ adaSends.Ready (World.db cfg.state) ∧
      adaWithdraws.Ready (World.db cfg.state) ∧
      ∀ dto : CreateTransferDto, (dto.pin = "1234" ∧ dto.currency = none ∧
          isColumnText (hashRequestBody platform (TransferCreateService.body dto.amount "NGN")) =
            true) →
        dto.Ready platform ⟨"u1"⟩ (some secondKey) secondKey adaRow (World.db cfg.state)
          (World.clock cfg.state) := by
  have hkey : requireIdempotencyKey (some secondKey) = .ok secondKey := by decide +kernel
  have hrun : (replayUnder (requests platform mockConfig) (.initial World.initial) fundedAda).any
      fun cfg => (List.range 6).all (fun j => ((World.store cfg.state).opened j).isNone) &&
        (cfg.threads 6).isNone && adaSends.Ready (World.db cfg.state) &&
        adaWithdraws.Ready (World.db cfg.state) && (World.db cfg.state).user "u1" = some adaRow &&
        (World.db cfg.state).wallets.any (·.userId = "u1") &&
        (World.db cfg.state).transfers.all
          fun t => ¬(t.userId = "u1" ∧ t.idempotencyKey = secondKey) := by decide +kernel
  obtain ⟨cfg, hcfg, hstate⟩ := (Option.any_eq_true ..).mp hrun
  simp only [Bool.and_eq_true, decide_eq_true_eq, List.any_eq_true, List.all_eq_true] at hstate
  obtain ⟨⟨⟨⟨⟨⟨hopened, hfree⟩, hsends⟩, hwithdraws⟩, huser⟩, hwallet⟩, hfresh⟩ := hstate
  exact ⟨cfg, hcfg, undisturbed_of_replay hcfg (by decide +kernel) (List.all_eq_true.mpr hopened),
    Option.isNone_iff_eq_none.mp hfree, hsends, hwithdraws,
    fun _ hdto => transferReady hdto hkey huser hwallet hfresh⟩

theorem admitted_amount_processed_schedule :
    ∃ cfg, replayUnder (requests platform mockConfig) (.initial World.initial) fundedAda = some cfg ∧
      Serves (calmly platform mockConfig) 6 (.executeP2p adaSends) cfg (Executed adaSends.Stored) ∧
      Serves (calmly platform mockConfig) 6 (.executeBankAccept adaWithdraws) cfg
        (Executed adaWithdraws.Stored) ∧
      Serves (calmly platform mockConfig) 6 (.postTransfers ⟨"u1"⟩ (some secondKey) adaFunds) cfg
        (Funded 2500 "u1" secondKey) := by
  obtain ⟨cfg, hcfg, hquiet, hi, hsends, hwithdraws, hfunds⟩ := fundedAda_ready
  obtain ⟨hp2p, hbank, htransfer⟩ := admitted_amount_processed_iff (.replayUnder hcfg) hquiet hi
  exact ⟨cfg, hcfg, (hp2p toBob adaSends rfl hsends).mpr (by decide +kernel),
    (hbank toBank adaWithdraws rfl hwithdraws).mpr (by decide +kernel),
    (htransfer ⟨"u1"⟩ (some secondKey) adaFunds secondKey adaRow
      (hfunds adaFunds ⟨rfl, rfl, by decide +kernel⟩)).mpr (by decide)⟩

/-- A transfer of three thousand million kobo is admitted, and fails in the database. -/
theorem huge_transfer_refused :
    ∃ cfg, Reachable (requests platform mockConfig) World.initial cfg ∧ Undisturbed cfg.state ∧
      cfg.threads 6 = none ∧
      hugeTransfer.Ready platform ⟨"u1"⟩ (some secondKey) secondKey adaRow (World.db cfg.state)
        (World.clock cfg.state) ∧
      ¬Serves (calmly platform mockConfig) 6 (.postTransfers ⟨"u1"⟩ (some secondKey) hugeTransfer) cfg
        (Funded hugeTransfer.amount "u1" secondKey) := by
  obtain ⟨cfg, hcfg, hquiet, hi, -, -, hfunds⟩ := fundedAda_ready
  have hready := hfunds hugeTransfer ⟨rfl, rfl, by decide +kernel⟩
  refine ⟨cfg, .replayUnder hcfg, hquiet, hi, hready, fun hserves => ?_⟩
  have hfits := ((serves_postTransfers (.replayUnder hcfg) hquiet hready).iff hi
    fun _ _ hfunded hr => hfunded.2 hr).mp hserves
  exact absurd hfits (by decide)

end Schedules

end WalletApi
