import WalletApi.Safety.Solvency

/-!
What the tables of the API say about each other.

The journal and the tables of requests are written by different operations, and
not always in one transaction. `Db.Books` is what holds between them in every
committed state: each request has the rows that were written with it, and each
row of the journal comes from a request and says what the request says.

`Db.Effect` lists everything that a commit of the API does to the tables, and
`Effect.books` is the one step lemma of this part: none of it disturbs the books.
-/

namespace WalletApi

open WalletTransactionRepository WithdrawalRepository

/-! ### Rows that belong to a request -/

/-- The credit that waits for the money of a transfer. -/
def Transfer.creditData (t : Transfer) : CreateWalletTransactionData :=
  (TransferCreateService.pendingCredit t t.idempotencyKey).data

/-- The debit of a withdrawal. -/
def Withdrawal.debitData (w : Withdrawal) : CreateWalletTransactionData :=
  match w.destinationType with
  | .wallet =>
      { walletId := w.walletId
        type := .debit
        purpose := .p2p
        status := .successful
        amount := w.amount
        idempotencyKey := "p2p-debit:" ++ w.userId ++ ":" ++ w.idempotencyKey
        counterpartWalletId := w.destinationWalletId
        withdrawalId := some w.id }
  | .bank =>
      { walletId := w.walletId
        type := .debit
        purpose := .bankPayout
        status := .successful
        amount := w.amount
        idempotencyKey := "bank-debit:" ++ w.userId ++ ":" ++ w.idempotencyKey
        reference := w.providerReference
        withdrawalId := some w.id }

/-- The credit of a withdrawal to another wallet. -/
def Withdrawal.creditData (w : Withdrawal) : CreateWalletTransactionData where
  walletId := w.destinationWalletId.getD ""
  type := .credit
  purpose := .p2p
  status := .successful
  amount := w.amount
  idempotencyKey := "p2p-credit:" ++ w.userId ++ ":" ++ w.idempotencyKey
  counterpartWalletId := some w.walletId
  withdrawalId := some w.id

/-- The credit that gives a bank withdrawal back. -/
def Withdrawal.reversalData (w : Withdrawal) : CreateWalletTransactionData :=
  (reversalInput w.id w.walletId w.amount (w.debitTransactionId.getD "null")).data

/-- The row has been made from the data. -/
def WalletTransaction.MadeFrom (r : WalletTransaction) (data : CreateWalletTransactionData) :
    Prop :=
  r = data.row r.id r.createdAt

/-- The columns that are not updated once the withdrawal is committed. -/
def Withdrawal.fixed (w : Withdrawal) : Withdrawal :=
  { w with status := .pending, providerTransferId := none, reversalTransactionId := none }

theorem Withdrawal.debitData_congr {w w' : Withdrawal} (h : w'.fixed = w.fixed) :
    w'.debitData = w.debitData := by
  show w'.fixed.debitData = w.fixed.debitData
  rw [h]

theorem Withdrawal.creditData_congr {w w' : Withdrawal} (h : w'.fixed = w.fixed) :
    w'.creditData = w.creditData := by
  show w'.fixed.creditData = w.fixed.creditData
  rw [h]

theorem Withdrawal.reversalData_congr {w w' : Withdrawal} (h : w'.fixed = w.fixed) :
    w'.reversalData = w.reversalData := by
  show w'.fixed.reversalData = w.fixed.reversalData
  rw [h]

theorem Transfer.creditData_congr {t t' : Transfer} (h : t'.core = t.core) :
    t'.creditData = t.creditData := by
  show t'.core.creditData = t.core.creditData
  rw [h]

theorem Withdrawal.debitData_type (w : Withdrawal) : w.debitData.type = .debit := by
  unfold debitData
  split <;> rfl

theorem Withdrawal.debitData_status (w : Withdrawal) : w.debitData.status = .successful := by
  unfold debitData
  split <;> rfl

theorem Withdrawal.debitData_withdrawalId (w : Withdrawal) :
    w.debitData.withdrawalId = some w.id := by
  unfold debitData
  split <;> rfl

theorem Withdrawal.debitData_walletId (w : Withdrawal) : w.debitData.walletId = w.walletId := by
  unfold debitData
  split <;> rfl

theorem Withdrawal.debitData_amount (w : Withdrawal) : w.debitData.amount = w.amount := by
  unfold debitData
  split <;> rfl

theorem Withdrawal.debitData_transferId (w : Withdrawal) : w.debitData.transferId = none := by
  unfold debitData
  split <;> rfl

/-! ### The books -/

structure Transfer.Booked (d : Db) (t : Transfer) : Prop where
  amount : 0 < t.amount
  key : isUuid4 t.idempotencyKey = true
  wallet : ∃ x ∈ d.wallets, x.id = t.walletId ∧ x.userId = t.userId

structure Withdrawal.Booked (d : Db) (w : Withdrawal) : Prop where
  amount : 0 < w.amount
  key : isUuid4 w.idempotencyKey = true
  wallet : ∃ x ∈ d.wallets, x.id = w.walletId ∧ x.userId = w.userId
  debit : ∃ r ∈ d.walletTransactions, w.debitTransactionId = some r.id ∧ r.MadeFrom w.debitData
  credit : w.destinationType = .wallet →
    ∃ r ∈ d.walletTransactions, w.creditTransactionId = some r.id ∧ r.MadeFrom w.creditData
  destination : w.destinationType = .wallet →
    ∃ x ∈ d.wallets, w.destinationWalletId = some x.id
  bank : w.destinationType = .bank →
    w.providerReference.isSome ∧ w.bankCode.isSome ∧ w.accountNumber.isSome

/-- Where a row of the journal comes from. -/
inductive WalletTransaction.Origin (d : Db) (r : WalletTransaction) : Prop
  | funding (t : Transfer) (ht : t ∈ d.transfers) (hr : r.core.MadeFrom t.creditData)
      (hs : r.status = .pending ∨ r.status = .successful)
  | debit (w : Withdrawal) (hw : w ∈ d.withdrawals) (hr : r.MadeFrom w.debitData)
  | credit (w : Withdrawal) (hw : w ∈ d.withdrawals) (hd : w.destinationType = .wallet)
      (hr : r.MadeFrom w.creditData)
  | reversal (w : Withdrawal) (hw : w ∈ d.withdrawals) (hd : w.destinationType = .bank)
      (hr : r.MadeFrom w.reversalData)

structure Db.Books (d : Db) : Prop where
  transfer : ∀ t ∈ d.transfers, t.Booked d
  withdrawal : ∀ w ∈ d.withdrawals, w.Booked d
  origin : ∀ r ∈ d.walletTransactions, r.Origin d
  solvent : d.Solvent

theorem Db.Books.empty : Db.empty.Books where
  transfer _ ht := absurd ht List.not_mem_nil
  withdrawal _ hw := absurd hw List.not_mem_nil
  origin _ hr := absurd hr List.not_mem_nil
  solvent := .empty

/-! ### What an effect keeps -/

structure Db.Keeps (d d' : Db) : Prop where
  wallets : ∀ x ∈ d.wallets, x ∈ d'.wallets
  transfers : ∀ t ∈ d.transfers, ∃ t' ∈ d'.transfers, t'.core = t.core
  rows : ∀ r ∈ d.walletTransactions, r.status = .successful → r ∈ d'.walletTransactions
  withdrawals : ∀ w ∈ d.withdrawals, ∃ w' ∈ d'.withdrawals, w'.fixed = w.fixed

theorem Db.Keeps.refl (d : Db) : d.Keeps d :=
  ⟨fun _ h => h, fun t h => ⟨t, h, rfl⟩, fun _ h _ => h, fun w h => ⟨w, h, rfl⟩⟩

theorem WalletTransaction.MadeFrom.status {r : WalletTransaction}
    {data : CreateWalletTransactionData} (h : r.MadeFrom data) : r.status = data.status := by
  rw [h]
  rfl

theorem Transfer.Booked.keeps {d d' : Db} {t t' : Transfer} (h : t.Booked d) (hk : d.Keeps d')
    (ht : t'.core = t.core) : t'.Booked d' where
  amount := by
    show 0 < t'.core.amount
    rw [ht]
    exact h.amount
  key := by
    show isUuid4 t'.core.idempotencyKey = true
    rw [ht]
    exact h.key
  wallet := by
    obtain ⟨x, hx, hid, huser⟩ := h.wallet
    show ∃ x ∈ d'.wallets, x.id = t'.core.walletId ∧ x.userId = t'.core.userId
    rw [ht]
    exact ⟨x, hk.wallets x hx, hid, huser⟩

theorem Withdrawal.Booked.keeps {d d' : Db} {w w' : Withdrawal} (h : w.Booked d)
    (hk : d.Keeps d') (hw : w'.fixed = w.fixed) : w'.Booked d' where
  amount := by
    show 0 < w'.fixed.amount
    rw [hw]
    exact h.amount
  key := by
    show isUuid4 w'.fixed.idempotencyKey = true
    rw [hw]
    exact h.key
  wallet := by
    obtain ⟨x, hx, hid, huser⟩ := h.wallet
    show ∃ x ∈ d'.wallets, x.id = w'.fixed.walletId ∧ x.userId = w'.fixed.userId
    rw [hw]
    exact ⟨x, hk.wallets x hx, hid, huser⟩
  debit := by
    obtain ⟨r, hr, hid, hmade⟩ := h.debit
    have hs : r.status = .successful := hmade.status.trans w.debitData_status
    refine ⟨r, hk.rows r hr hs, ?_, by rw [debitData_congr hw]; exact hmade⟩
    show w'.fixed.debitTransactionId = some r.id
    rw [hw]
    exact hid
  credit := by
    intro hd
    have hd' : w.fixed.destinationType = .wallet := by rw [← hw]; exact hd
    obtain ⟨r, hr, hid, hmade⟩ := h.credit hd'
    refine ⟨r, hk.rows r hr hmade.status, ?_, by rw [creditData_congr hw]; exact hmade⟩
    show w'.fixed.creditTransactionId = some r.id
    rw [hw]
    exact hid
  destination := by
    intro hd
    have hd' : w.fixed.destinationType = .wallet := by rw [← hw]; exact hd
    obtain ⟨x, hx, hid⟩ := h.destination hd'
    refine ⟨x, hk.wallets x hx, ?_⟩
    show w'.fixed.destinationWalletId = some x.id
    rw [hw]
    exact hid
  bank := by
    show w'.fixed.destinationType = .bank → w'.fixed.providerReference.isSome ∧
      w'.fixed.bankCode.isSome ∧ w'.fixed.accountNumber.isSome
    rw [hw]
    exact h.bank

theorem WalletTransaction.Origin.keeps {d d' : Db} {r : WalletTransaction} (h : r.Origin d)
    (hk : d.Keeps d') : r.Origin d' := by
  cases h with
  | funding t ht hr hs =>
      obtain ⟨t', ht', hcore⟩ := hk.transfers t ht
      exact .funding t' ht' (by rw [Transfer.creditData_congr hcore]; exact hr) hs
  | debit w hw hr =>
      obtain ⟨w', hw', hfixed⟩ := hk.withdrawals w hw
      exact .debit w' hw' (by rw [Withdrawal.debitData_congr hfixed]; exact hr)
  | credit w hw hd hr =>
      obtain ⟨w', hw', hfixed⟩ := hk.withdrawals w hw
      refine .credit w' hw' ?_ (by rw [Withdrawal.creditData_congr hfixed]; exact hr)
      show w'.fixed.destinationType = .wallet
      rw [hfixed]
      exact hd
  | reversal w hw hd hr =>
      obtain ⟨w', hw', hfixed⟩ := hk.withdrawals w hw
      refine .reversal w' hw' ?_ (by rw [Withdrawal.reversalData_congr hfixed]; exact hr)
      show w'.fixed.destinationType = .bank
      rw [hfixed]
      exact hd

/-- The credit of a transfer, once the money has come. -/
theorem WalletTransaction.Origin.complete {d : Db} {r : WalletTransaction} (h : r.Origin d)
    (hs : r.status = .pending) : { r with status := .successful }.Origin d := by
  cases h with
  | funding t ht hr _ => exact .funding t ht hr (.inr rfl)
  | debit w _ hr => cases hs.symm.trans (hr.status.trans w.debitData_status)
  | credit w _ _ hr => cases hs.symm.trans hr.status
  | reversal w _ _ hr => cases hs.symm.trans hr.status

/-- The books after a change that keeps what is there and adds what is in order. -/
theorem Db.Books.of_keeps {d d' : Db} (h : d.Books) (hk : d.Keeps d')
    (ht : ∀ t' ∈ d'.transfers, (∃ t ∈ d.transfers, t'.core = t.core) ∨ t'.Booked d')
    (hw : ∀ w' ∈ d'.withdrawals, (∃ w ∈ d.withdrawals, w'.fixed = w.fixed) ∨ w'.Booked d')
    (hr : ∀ r' ∈ d'.walletTransactions, r' ∈ d.walletTransactions ∨ r'.Origin d')
    (hs : d'.Solvent) : d'.Books where
  transfer t' ht' := by
    rcases ht t' ht' with ⟨t, hmem, hcore⟩ | hok
    · exact (h.transfer t hmem).keeps hk hcore
    · exact hok
  withdrawal w' hw' := by
    rcases hw w' hw' with ⟨w, hmem, hfixed⟩ | hok
    · exact (h.withdrawal w hmem).keeps hk hfixed
    · exact hok
  origin r' hr' := by
    rcases hr r' hr' with hmem | hok
    · exact (h.origin r' hmem).keeps hk
    · exact hok
  solvent := hs

/-! ### The effects -/

/-- What a commit of the API does to the tables. -/
inductive Db.Effect (d : Db) : Db → Prop
  /-- Users and webhook events. -/
  | aside {d' : Db} (hx : ∀ x ∈ d.wallets, x ∈ d'.wallets) (ht : d'.transfers = d.transfers)
      (hr : d'.walletTransactions = d.walletTransactions) (hw : d'.withdrawals = d.withdrawals) :
      d.Effect d'
  | createTransfer (t : Transfer) (ht : t.Booked d) : d.Effect ((Write.createTransfer t).apply d)
  | updateTransfer (id : String) (data : UpdateTransferData) :
      d.Effect ((Write.updateTransfer id data).apply d)
  | pendingCredit (t : Transfer) (ht : t ∈ d.transfers) (stamp : String × ℕ) :
      d.Effect ((Write.createWalletTransaction (t.creditData.row stamp.1 stamp.2)).apply d)
  | completeCredit (r : WalletTransaction) (hr : r ∈ d.walletTransactions)
      (hs : r.status = .pending) :
      d.Effect ((Write.updateWalletTransactionStatus r.id .successful).apply d)
  | p2p (data : ExecuteP2pWithdrawalData) (a b c : String × ℕ) (hamount : 0 < data.amount)
      (hkey : isUuid4 data.idempotencyKey = true)
      (hx : ∃ x ∈ d.wallets, x.id = data.senderWalletId ∧ x.userId = data.userId)
      (hy : ∃ x ∈ d.wallets, x.id = data.destinationWalletId)
      (hfunds : data.amount ≤ sumSuccessfulBalance d data.senderWalletId) :
      d.Effect { d with
        withdrawals := d.withdrawals ++ [data.final a b c]
        walletTransactions := d.walletTransactions ++
          [(data.debit a.1).row b.1 b.2, (data.credit a.1).row c.1 c.2] }
  | bankAccept (data : ExecuteBankWithdrawalData) (a b : String × ℕ) (hamount : 0 < data.amount)
      (hkey : isUuid4 data.idempotencyKey = true)
      (hx : ∃ x ∈ d.wallets, x.id = data.walletId ∧ x.userId = data.userId)
      (hfunds : data.amount ≤ sumSuccessfulBalance d data.walletId) :
      d.Effect { d with
        withdrawals := d.withdrawals ++ [data.final a b]
        walletTransactions := d.walletTransactions ++ [(data.debit a.1).row b.1 b.2] }
  | reversal (w : Withdrawal) (hw : w ∈ d.withdrawals) (hd : w.destinationType = .bank)
      (stamp : String × ℕ) :
      d.Effect ((Write.createWalletTransaction (w.reversalData.row stamp.1 stamp.2)).apply d)
  | updateWithdrawal (id : String) (data : UpdateWithdrawalProviderData)
      (hdebit : data.debitTransactionId = none) (hcredit : data.creditTransactionId = none) :
      d.Effect ((Write.updateWithdrawal id data).apply d)

theorem Withdrawal.fixed_patch {data : UpdateWithdrawalProviderData}
    (hdebit : data.debitTransactionId = none) (hcredit : data.creditTransactionId = none)
    (w : Withdrawal) : (w.patch data).fixed = w.fixed := by
  simp [patch, fixed, hdebit, hcredit]

namespace Db.Effect

variable {d d' : Db}

theorem keeps (h : d.Effect d') (hu : d.Unique) : d.Keeps d' := by
  have hd := Keeps.refl d
  cases h with
  | aside hx ht hr hw =>
      exact ⟨hx, ht ▸ hd.transfers, hr ▸ hd.rows, hw ▸ hd.withdrawals⟩
  | createTransfer t _ => exact { hd with transfers := fun _ h => exists_mem_append h }
  | updateTransfer id data =>
      exact { hd with transfers := fun _ h => exists_mem_update (Transfer.core_patch data) h }
  | pendingCredit t _ stamp => exact { hd with rows := fun _ h _ => List.mem_append_left _ h }
  | completeCredit r hr hs =>
      refine { hd with rows := fun x hx hxs => List.mem_map.mpr ⟨x, hx, if_neg fun hid => ?_⟩ }
      rw [hu.row_ext hx hr hid, hs] at hxs
      cases hxs
  | p2p data a b c _ _ _ _ _ =>
      exact { hd with
        rows := fun _ h _ => List.mem_append_left _ h
        withdrawals := fun _ h => exists_mem_append h }
  | bankAccept data a b _ _ _ _ =>
      exact { hd with
        rows := fun _ h _ => List.mem_append_left _ h
        withdrawals := fun _ h => exists_mem_append h }
  | reversal w _ _ stamp => exact { hd with rows := fun _ h _ => List.mem_append_left _ h }
  | updateWithdrawal id data hdebit hcredit =>
      exact { hd with
        withdrawals := fun _ h => exists_mem_update (Withdrawal.fixed_patch hdebit hcredit) h }

/-- No effect overdraws a wallet. -/
theorem solvent (h : d.Effect d') (hu : d.Unique) (hb : d.Books) : d'.Solvent := by
  have hs := hb.solvent
  cases h with
  | aside _ _ hr _ => exact hs.congr hr
  | createTransfer t _ => exact hs.congr rfl
  | updateTransfer id data => exact hs.congr rfl
  | pendingCredit t ht stamp => exact hs.credit rfl rfl (hb.transfer t ht).amount.le
  | completeCredit r hr hpending => exact hs.complete hu hr hpending rfl
  | p2p data a b c hamount _ _ _ hfunds => exact hs.transfer rfl rfl rfl rfl hamount.le hfunds
  | bankAccept data a b _ _ _ hfunds => exact hs.debit rfl rfl rfl hfunds
  | reversal w hw _ stamp => exact hs.credit rfl rfl (hb.withdrawal w hw).amount.le
  | updateWithdrawal id data _ _ => exact hs.congr rfl

/-- The step lemma: an effect keeps the books. -/
theorem books (h : d.Effect d') (hu : d.Unique) (hb : d.Books) : d'.Books := by
  have hk := h.keeps hu
  have hs := h.solvent hu hb
  have oldTransfer : ∀ t ∈ d.transfers, (∃ t' ∈ d.transfers, t.core = t'.core) ∨ t.Booked d' :=
    fun t ht => .inl ⟨t, ht, rfl⟩
  have oldWithdrawal : ∀ w ∈ d.withdrawals,
      (∃ w' ∈ d.withdrawals, w.fixed = w'.fixed) ∨ w.Booked d' := fun w hw => .inl ⟨w, hw, rfl⟩
  have oldRow : ∀ r ∈ d.walletTransactions, r ∈ d.walletTransactions ∨ r.Origin d' :=
    fun r hr => .inl hr
  cases h with
  | aside _ ht hr hw =>
      exact hb.of_keeps hk (ht ▸ oldTransfer) (hw ▸ oldWithdrawal) (hr ▸ oldRow) hs
  | createTransfer t ht =>
      refine hb.of_keeps hk (fun t' ht' => ?_) oldWithdrawal oldRow hs
      rcases List.mem_append.mp ht' with hold | hnew
      · exact oldTransfer t' hold
      · rw [List.mem_singleton.mp hnew]
        exact .inr (ht.keeps hk rfl)
  | updateTransfer id data =>
      exact hb.of_keeps hk (fun t' ht' => .inl (exists_of_mem_update (Transfer.core_patch data) ht'))
        oldWithdrawal oldRow hs
  | pendingCredit t ht stamp =>
      refine hb.of_keeps hk oldTransfer oldWithdrawal (fun r hr => ?_) hs
      rcases List.mem_append.mp hr with hold | hnew
      · exact oldRow r hold
      · rw [List.mem_singleton.mp hnew]
        exact .inr (.funding t ht rfl (.inl rfl))
  | completeCredit r hr hpending =>
      refine hb.of_keeps hk oldTransfer oldWithdrawal (fun x hx => ?_) hs
      obtain ⟨y, hy, rfl⟩ := List.mem_map.mp hx
      split
      · rename_i hid
        rw [hu.row_ext hy hr hid]
        exact .inr (((hb.origin r hr).complete hpending).keeps hk)
      · exact oldRow y hy
  | p2p data a b c hamount hkey hx hy _ =>
      have hdebit : (data.debit a.1).row b.1 b.2 ∈ d.walletTransactions ++
          [(data.debit a.1).row b.1 b.2, (data.credit a.1).row c.1 c.2] :=
        List.mem_append_right _ (.head _)
      have hcredit : (data.credit a.1).row c.1 c.2 ∈ d.walletTransactions ++
          [(data.debit a.1).row b.1 b.2, (data.credit a.1).row c.1 c.2] :=
        List.mem_append_right _ (.tail _ (.head _))
      have hfinal : data.final a b c ∈ d.withdrawals ++ [data.final a b c] :=
        List.mem_append_right _ (.head _)
      obtain ⟨y, hy, hyid⟩ := hy
      refine hb.of_keeps hk oldTransfer (fun w hw => ?_) (fun r hr => ?_) hs
      · rcases List.mem_append.mp hw with hold | hnew
        · exact oldWithdrawal w hold
        · rw [List.mem_singleton.mp hnew]
          exact .inr ⟨hamount, hkey, hx, ⟨_, hdebit, rfl, rfl⟩, fun _ => ⟨_, hcredit, rfl, rfl⟩,
            fun _ => ⟨y, hy, congrArg some hyid.symm⟩, nofun⟩
      · rcases List.mem_append.mp hr with hold | hnew
        · exact oldRow r hold
        · rcases List.mem_cons.mp hnew with rfl | hnew
          · exact .inr (.debit _ hfinal rfl)
          · rw [List.mem_singleton.mp hnew]
            exact .inr (.credit _ hfinal rfl rfl)
  | bankAccept data a b hamount hkey hx _ =>
      have hdebit : (data.debit a.1).row b.1 b.2 ∈
          d.walletTransactions ++ [(data.debit a.1).row b.1 b.2] :=
        List.mem_append_right _ (.head _)
      refine hb.of_keeps hk oldTransfer (fun w hw => ?_) (fun r hr => ?_) hs
      · rcases List.mem_append.mp hw with hold | hnew
        · exact oldWithdrawal w hold
        · rw [List.mem_singleton.mp hnew]
          exact .inr ⟨hamount, hkey, hx, ⟨_, hdebit, rfl, rfl⟩, nofun, nofun,
            fun _ => ⟨rfl, rfl, rfl⟩⟩
      · rcases List.mem_append.mp hr with hold | hnew
        · exact oldRow r hold
        · rw [List.mem_singleton.mp hnew]
          exact .inr (.debit (data.final a b) (List.mem_append_right _ (.head _)) rfl)
  | reversal w hw hd stamp =>
      refine hb.of_keeps hk oldTransfer oldWithdrawal (fun r hr => ?_) hs
      rcases List.mem_append.mp hr with hold | hnew
      · exact oldRow r hold
      · rw [List.mem_singleton.mp hnew]
        exact .inr (.reversal w hw hd rfl)
  | updateWithdrawal id data hdebit hcredit =>
      exact hb.of_keeps hk oldTransfer
        (fun w' hw' => .inl (exists_of_mem_update (Withdrawal.fixed_patch hdebit hcredit) hw'))
        oldRow hs

end Db.Effect

end WalletApi
