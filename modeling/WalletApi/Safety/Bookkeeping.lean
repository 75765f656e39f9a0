import WalletApi.Runs.AuthOperations
import WalletApi.Safety.Books

/-!
The policy of the whole API: the books are kept, and what happens to a bank
withdrawal is on record.

The history says which transfers the provider has been asked for and what it has
answered. `Recorded` ties this to the tables: a request is about a withdrawal, a
transfer id comes from an answer, and a reversal has a reason. `Moved` says what
one step does to the withdrawals: a new one comes under the lock of its wallet,
and a status is rewritten only by a thread that has seen the withdrawal open.

The policy leaves open what is assumed of the schedule. Its assumption `A` is
handed on to those who need to know under which circumstances a step was taken.
-/

namespace WalletApi

open Concurrency ReadCommitted World Policy WalletTransactionRepository WithdrawalRepository
  WithdrawalPayoutService

/-! ### What an event says -/

namespace Event

/-- The transfer that the provider is asked for. -/
def request (e : Event) : Option InitiateBankTransferParams :=
  match e.cmd with
  | .initiateBankTransfer params => some params
  | _ => none

/-- The answer of the provider to such a request, if it has arrived. -/
def reply (e : Event) : Option (InitiateBankTransferParams × InitiateBankTransferResult) :=
  match e with
  | ⟨_, .initiateBankTransfer params, .ok result, _⟩ => some (params, result)
  | _ => none

/-- The status that the provider has reported for a transfer. -/
def report (e : Event) : Option (String × BankTransferStatusResult) :=
  match e with
  | ⟨_, .getBankTransferStatus transferId, .ok result, _⟩ => some (transferId, result)
  | _ => none

/-- The status that has been written to the withdrawal. -/
def statusWritten (e : Event) (id : String) : Option WithdrawalStatus :=
  match e with
  | ⟨_, .write .pool (.updateWithdrawal id' data), _, true⟩ => if id' = id then data.status else none
  | _ => none

/-- The thread has read the withdrawal. -/
def reads (e : Event) (i : ℕ) (id : String) : Bool :=
  match e with
  | ⟨j, .select .pool (.withdrawalById id'), _, _⟩ => j = i ∧ id' = id
  | _ => false

/-- The job that has been added to its queue. -/
def added (e : Event) : Option Job :=
  match e with
  | ⟨_, .queueAdd job, _, true⟩ => some job
  | _ => none

theorem Quiet.request {e : Event} (h : e.Quiet) : e.request = none := by
  unfold Event.Quiet at h
  unfold Event.request
  split at h
  · rename_i hcmd
    rw [hcmd]
  · exact h.elim
  · exact h.elim
  · rename_i hne _
    split
    · rename_i params hcmd
      exact absurd hcmd (hne params)
    · rfl

end Event

/-! ### The record -/

namespace World

/-- The provider has taken the transfer of the withdrawal on under the id. -/
def Accepted (s : World) (w : Withdrawal) (id : String) : Prop :=
  ∃ e ∈ s.history, ∃ r, e.reply = some (bankTransferParams w, r) ∧ r.status ≠ .failed ∧
    r.transferId = some id

/-- The provider has told that the withdrawal is not paid out. -/
def Refused (s : World) (w : Withdrawal) : Prop :=
  (∃ e ∈ s.history, ∃ r, e.reply = some (bankTransferParams w, r) ∧ r.status = .failed) ∨
    ∃ id, s.Accepted w id ∧ ∃ e ∈ s.history, ∃ r, e.report = some (id, r) ∧ r.status = .failed

structure Recorded (s : World) : Prop where
  request : ∀ e ∈ s.history, ∀ params, e.request = some params →
    ∃ w ∈ s.db.withdrawals, w.destinationType = .bank ∧ params = bankTransferParams w
  transferId : ∀ w ∈ s.db.withdrawals, ∀ id, w.providerTransferId = some id →
    w.destinationType = .bank ∧ s.Accepted w id
  reversal : ∀ r ∈ s.db.walletTransactions, r.purpose = .reversal →
    ∀ w ∈ s.db.withdrawals, r.withdrawalId = some w.id → s.Refused w

/-- Thread `i` has read the withdrawal while it was open, and every change of its
status since then is on record. -/
def Watched (s : World) (i : ℕ) (id : String) : Prop :=
  ∃ es e₀ h status, s.history = es ++ e₀ :: h ∧ e₀.reads i id = true ∧
    WithdrawalStatus.terminal status = false ∧
    ∀ w ∈ s.db.withdrawals, w.id = id →
      w.status = status ∨ ∃ e ∈ es, e.statusWritten id = some w.status

end World

theorem bankTransferParams_congr {w w' : Withdrawal} (h : w'.fixed = w.fixed) :
    bankTransferParams w' = bankTransferParams w := by
  show bankTransferParams w'.fixed = bankTransferParams w.fixed
  rw [h]

namespace World

variable {s t : World} {w w' : Withdrawal}

theorem Accepted.mono {id : String} (h : s.Accepted w id) (hh : ∀ e ∈ s.history, e ∈ t.history)
    (hw : w'.fixed = w.fixed) : t.Accepted w' id := by
  obtain ⟨e, he, r, hr⟩ := h
  exact ⟨e, hh e he, r, by rw [bankTransferParams_congr hw]; exact hr⟩

theorem Refused.mono (h : s.Refused w) (hh : ∀ e ∈ s.history, e ∈ t.history)
    (hw : w'.fixed = w.fixed) : t.Refused w' := by
  rcases h with ⟨e, he, r, hr⟩ | ⟨id, ha, e, he, hr⟩
  · exact .inl ⟨e, hh e he, r, by rw [bankTransferParams_congr hw]; exact hr⟩
  · exact .inr ⟨id, ha.mono hh hw, e, hh e he, hr⟩

/-- The withdrawal that a reversal is about, before and after an effect. -/
theorem exists_of_reversal (hb : s.db.Books) (hk : s.db.Keeps t.db) (hu : t.db.Unique)
    {r : WalletTransaction} (hr : r ∈ s.db.walletTransactions) (hp : r.purpose = .reversal)
    (hw : w ∈ t.db.withdrawals) (hid : r.withdrawalId = some w.id) :
    ∃ w₀ ∈ s.db.withdrawals, r.withdrawalId = some w₀.id ∧ w.fixed = w₀.fixed := by
  have hmade : ∃ w₀ ∈ s.db.withdrawals, r.withdrawalId = some w₀.id := by
    cases hb.origin r hr with
    | funding tr _ hr' _ =>
        have hpurpose : r.core.purpose = .flutterwaveFunding := by rw [hr']; rfl
        cases hp.symm.trans hpurpose
    | debit w₀ hw₀ hr' =>
        refine ⟨w₀, hw₀, ?_⟩
        rw [hr']
        exact w₀.debitData_withdrawalId
    | credit w₀ hw₀ _ hr' => exact ⟨w₀, hw₀, by rw [hr']; rfl⟩
    | reversal w₀ hw₀ _ hr' => exact ⟨w₀, hw₀, by rw [hr']; rfl⟩
  obtain ⟨w₀, hw₀, hid₀⟩ := hmade
  obtain ⟨w₁, hw₁, hfixed⟩ := hk.withdrawals w₀ hw₀
  have hid₁ : w₁.fixed.id = w₀.fixed.id := by rw [hfixed]
  have hww₀ : w.id = w₀.id := Option.some.inj (hid.symm.trans hid₀)
  refine ⟨w₀, hw₀, hid₀, ?_⟩
  rw [hu.withdrawal_ext hw hw₁ (hww₀.trans hid₁.symm), hfixed]

/-- The record after an effect. -/
theorem Recorded.of_effect (h : s.Recorded) (hb : s.db.Books) (hk : s.db.Keeps t.db)
    (hu : t.db.Unique) {e : Event} (hh : t.history = e :: s.history) (he : e.request = none)
    (htransferId : ∀ w ∈ t.db.withdrawals, ∀ id, w.providerTransferId = some id →
      (∃ w₀ ∈ s.db.withdrawals, w.fixed = w₀.fixed ∧ w₀.providerTransferId = some id) ∨
        w.destinationType = .bank ∧ t.Accepted w id)
    (hreversal : ∀ r ∈ t.db.walletTransactions, r.purpose = .reversal →
      r ∈ s.db.walletTransactions ∨
        ∀ w ∈ t.db.withdrawals, r.withdrawalId = some w.id → t.Refused w) : t.Recorded where
  request e' he' params hp := by
    rw [hh] at he'
    rcases List.mem_cons.mp he' with rfl | hold
    · rw [he] at hp
      cases hp
    · obtain ⟨w, hw, hd, hparams⟩ := h.request e' hold params hp
      obtain ⟨w', hw', hfixed⟩ := hk.withdrawals w hw
      refine ⟨w', hw', ?_, by rw [bankTransferParams_congr hfixed, hparams]⟩
      show w'.fixed.destinationType = .bank
      rw [hfixed]
      exact hd
  transferId w hw id hid := by
    rcases htransferId w hw id hid with ⟨w₀, hw₀, hfixed, hid₀⟩ | hnew
    · obtain ⟨hd, hacc⟩ := h.transferId w₀ hw₀ id hid₀
      refine ⟨?_, hacc.mono (fun e' he' => by rw [hh]; exact .tail _ he') hfixed⟩
      show w.fixed.destinationType = .bank
      rw [hfixed]
      exact hd
    · exact hnew
  reversal r hr hp w hw hid := by
    rcases hreversal r hr hp with hold | hnew
    · obtain ⟨w₀, hw₀, hid₀, hfixed⟩ := exists_of_reversal hb hk hu hold hp hw hid
      exact (h.reversal r hold hp w₀ hw₀ hid₀).mono
        (fun e' he' => by rw [hh]; exact .tail _ he') hfixed
    · exact hnew w hw hid

/-- The record when the tables stay as they are. -/
theorem Recorded.of_db_eq (h : s.Recorded) (hdb : t.db = s.db)
    (hh : ∀ e ∈ s.history, e ∈ t.history)
    (hnew : ∀ e ∈ t.history, e ∈ s.history ∨ ∀ params, e.request = some params →
      ∃ w ∈ s.db.withdrawals, w.destinationType = .bank ∧ params = bankTransferParams w) :
    t.Recorded where
  request e he params hp := by
    rw [hdb]
    rcases hnew e he with hold | hnew
    · exact h.request e hold params hp
    · exact hnew params hp
  transferId w hw id hid := by
    rw [hdb] at hw
    obtain ⟨hd, hacc⟩ := h.transferId w hw id hid
    exact ⟨hd, hacc.mono hh rfl⟩
  reversal r hr hp w hw hid := by
    rw [hdb] at hr hw
    exact (h.reversal r hr hp w hw hid).mono hh rfl

theorem Recorded.quiet (h : s.Recorded) (hq : Quiet s t) : t.Recorded := by
  rcases hq.history with hh | ⟨e, he, hh⟩
  · exact h.of_db_eq hq.db (fun e he => hh ▸ he) fun e he => .inl (hh ▸ he)
  · refine h.of_db_eq hq.db (fun e' he' => by rw [hh]; exact .tail _ he') fun e' he' => ?_
    rw [hh] at he'
    rcases List.mem_cons.mp he' with rfl | hold
    · refine .inr fun params hp => ?_
      rw [he.request] at hp
      cases hp
    · exact .inl hold

end World

/-! ### The policy -/

section Policy

variable (A : Call → ℕ → Cmd → Choice → World → Prop)

/-- What one step does to the withdrawals. -/
structure Moved (i : ℕ) (s t : World) : Prop where
  db : t.db = s.db ∨ s.db.Effect t.db
  /-- A new withdrawal comes under the lock of its wallet. -/
  locked : ∀ w ∈ t.db.withdrawals,
    (∃ w₀ ∈ s.db.withdrawals, w.fixed = w₀.fixed) ∨ s.store.locks w.walletId = some i
  /-- A status is rewritten by a thread that has seen the withdrawal open. -/
  status : ∀ w ∈ s.db.withdrawals, ∀ w' ∈ t.db.withdrawals, w'.id = w.id →
    w'.status = w.status ∨
      (∃ e, t.history = e :: s.history ∧ e.statusWritten w.id = some w'.status) ∧
        s.Watched i w.id ∧
        ∃ q ch data, ch.fault ≠ .failed ∧ data.status = some w'.status ∧
          A q i (.write .pool (.updateWithdrawal w.id data)) ch s
  /-- So is a reversal posted. -/
  reversal : ∀ r ∈ t.db.walletTransactions, r.purpose = .reversal →
    r ∈ s.db.walletTransactions ∨
      ∃ id, r.withdrawalId = some id ∧ s.Watched i id ∧
        ∃ q ch, ch.fault ≠ .failed ∧ s.store.opened i = some [.createWalletTransaction r] ∧
          A q i .commit ch s

theorem Moved.of_db_eq {i : ℕ} {s t : World} (h : t.db = s.db) (hu : s.db.Unique) :
    Moved A i s t where
  db := .inl h
  locked w hw := .inl ⟨w, h ▸ hw, rfl⟩
  status w hw w' hw' hid := by
    rw [h] at hw'
    rw [hu.withdrawal_ext hw' hw hid]
    exact .inl rfl
  reversal r hr _ := .inl (h ▸ hr)

def bookkeeping : Policy where
  Inv s := s.db.Unique ∧ s.db.Books ∧ s.Recorded
  Guar := Moved A
  Allows := A
  quiet {i s t} hq h := by
    refine ⟨⟨by rw [hq.db]; exact h.1, by rw [hq.db]; exact h.2.1, h.2.2.quiet hq⟩, ?_⟩
    exact .of_db_eq A hq.db h.1

end Policy

/-! ### What the policy grants -/

section Grants

variable {P : Platform} {config : Config} {A : Call → ℕ → Cmd → Choice → World → Prop} {q : Call}
  {i : ℕ} {s t u : World}

/-- A step that changes the tables. -/
theorem grant (ht : (bookkeeping A).Inv t) (hu : u.db.Unique) (he : t.db.Effect u.db) {e : Event}
    (hh : u.history = e :: t.history) (hreq : e.request = none)
    (hlocked : ∀ w ∈ u.db.withdrawals,
      (∃ w₀ ∈ t.db.withdrawals, w.fixed = w₀.fixed) ∨ t.store.locks w.walletId = some i)
    (hstatus : ∀ w ∈ t.db.withdrawals, ∀ w' ∈ u.db.withdrawals, w'.id = w.id →
      w'.status = w.status ∨ e.statusWritten w.id = some w'.status ∧ t.Watched i w.id ∧
        ∃ q ch data, ch.fault ≠ .failed ∧ data.status = some w'.status ∧
          A q i (.write .pool (.updateWithdrawal w.id data)) ch t)
    (htransferId : ∀ w ∈ u.db.withdrawals, ∀ id, w.providerTransferId = some id →
      (∃ w₀ ∈ t.db.withdrawals, w.fixed = w₀.fixed ∧ w₀.providerTransferId = some id) ∨
        w.destinationType = .bank ∧ u.Accepted w id)
    (hreversal : ∀ r ∈ u.db.walletTransactions, r.purpose = .reversal →
      r ∈ t.db.walletTransactions ∨
        ∃ id, r.withdrawalId = some id ∧ t.Watched i id ∧
          (∃ q ch, ch.fault ≠ .failed ∧ t.store.opened i = some [.createWalletTransaction r] ∧
            A q i .commit ch t) ∧
          ∀ w ∈ u.db.withdrawals, w.id = id → u.Refused w) :
    (bookkeeping A).Inv u ∧ (bookkeeping A).Guar i t u := by
  obtain ⟨hunique, hb, hrec⟩ := ht
  have hk := he.keeps hunique
  refine ⟨⟨hu, he.books hunique hb, hrec.of_effect hb hk hu hh hreq htransferId ?_⟩,
    .inr he, hlocked, ?_, ?_⟩
  · intro r hr hp
    refine (hreversal r hr hp).imp_right ?_
    rintro ⟨id, hid, -, -, hrefused⟩ w hw hwid
    exact hrefused w hw (Option.some.inj (hwid.symm.trans hid))
  · intro w hw w' hw' hid
    refine (hstatus w hw w' hw' hid).imp_right ?_
    rintro ⟨hwritten, hrest⟩
    exact ⟨⟨e, hh, hwritten⟩, hrest⟩
  · intro r hr hp
    refine (hreversal r hr hp).imp_right ?_
    rintro ⟨id, hid, hwatched, hcommit, -⟩
    exact ⟨id, hid, hwatched, hcommit⟩

/-- A step that leaves the withdrawals alone and posts no reversal. -/
theorem grant_same (ht : (bookkeeping A).Inv t) (hu : u.db.Unique) (he : t.db.Effect u.db)
    {e : Event} (hh : u.history = e :: t.history) (hreq : e.request = none)
    (hw : u.db.withdrawals = t.db.withdrawals)
    (hr : ∀ r ∈ u.db.walletTransactions, r.purpose = .reversal → r ∈ t.db.walletTransactions) :
    (bookkeeping A).Inv u ∧ (bookkeeping A).Guar i t u := by
  refine grant ht hu he hh hreq (fun w h => .inl ⟨w, hw ▸ h, rfl⟩) ?_
    (fun w h id hid => .inl ⟨w, hw ▸ h, rfl, hid⟩) fun r h hp => .inl (hr r h hp)
  intro w h w' h' hid
  rw [ht.1.withdrawal_ext (hw ▸ h') h hid]
  exact .inl rfl

/-- A step that adds a withdrawal under the lock of its wallet. -/
theorem grant_append (ht : (bookkeeping A).Inv t) (hu : u.db.Unique) (he : t.db.Effect u.db)
    {e : Event} (hh : u.history = e :: t.history) (hreq : e.request = none) {new : Withdrawal}
    (hw : u.db.withdrawals = t.db.withdrawals ++ [new])
    (hlock : t.store.locks new.walletId = some i) (hid : new.providerTransferId = none)
    (hr : ∀ r ∈ u.db.walletTransactions, r.purpose = .reversal → r ∈ t.db.walletTransactions) :
    (bookkeeping A).Inv u ∧ (bookkeeping A).Guar i t u := by
  refine grant ht hu he hh hreq ?_ ?_ ?_ fun r h hp => .inl (hr r h hp)
  · intro w h
    rw [hw] at h
    rcases List.mem_append.mp h with hold | hnew
    · exact .inl ⟨w, hold, rfl⟩
    · rw [List.mem_singleton.mp hnew]
      exact .inr hlock
  · intro w h w' h' hid'
    rw [hu.withdrawal_ext h' (hw ▸ List.mem_append_left _ h) hid']
    exact .inl rfl
  · intro w h id hid'
    rw [hw] at h
    rcases List.mem_append.mp h with hold | hnew
    · exact .inl ⟨w, hold, rfl, hid'⟩
    · rw [List.mem_singleton.mp hnew, hid] at hid'
      cases hid'

theorem grantsUsers : GrantsUsers P config (bookkeeping A) q i where
  register {t u user wallet} hw _ := by
    obtain ⟨r, hh⟩ := hw.history
    have he : t.db.Effect u.db := by
      rw [hw.db]
      exact .aside (fun _ hx => List.mem_append_left _ hx) rfl rfl rfl
    exact grant_same hw.inv.2.2 hw.unique he hh rfl (by rw [hw.db]; rfl) fun r hr _ => by
      rw [hw.db] at hr
      exact hr
  update {t u id data} hw := by
    obtain ⟨r, hh⟩ := hw.history
    have he : t.db.Effect u.db := by
      rw [hw.db]
      exact .aside (fun _ hx => hx) rfl rfl rfl
    exact grant_same hw.inv.2.2 hw.unique he hh rfl (by rw [hw.db]; rfl) fun r hr _ => by
      rw [hw.db] at hr
      exact hr

/-- The sender of a transfer between wallets is the wallet of the user. -/
theorem grantsP2p {data : ExecuteP2pWithdrawalData} (hamount : 0 < data.amount)
    (hkey : isUuid4 data.idempotencyKey = true)
    (hx : ∃ x ∈ s.db.wallets, x.id = data.senderWalletId ∧ x.userId = data.userId) :
    GrantsP2p P config (bookkeeping A) q i s data := by
  intro t u a b c hst hc hfunds hlock hids
  obtain ⟨r, hh⟩ := hc.history
  obtain ⟨x, hx, hid, huser⟩ := hx
  have hdb := data.db_of_commits hc
  have he : t.db.Effect u.db := by
    rw [hdb]
    exact .p2p data a b c hamount hkey ⟨x, (grows_of_runs hst).wallets x hx, hid, huser⟩
      (hids _ (.tail _ (.head _))) hfunds
  refine grant_append hc.inv.2.2 hc.unique he hh rfl (by rw [hdb])
    hlock rfl fun r hr hp => ?_
  rw [hdb] at hr
  rcases List.mem_append.mp hr with hold | hnew
  · exact hold
  · rcases List.mem_cons.mp hnew with rfl | hnew
    · cases hp
    · rw [List.mem_singleton.mp hnew] at hp
      cases hp

theorem grantsBank {data : ExecuteBankWithdrawalData} (hamount : 0 < data.amount)
    (hkey : isUuid4 data.idempotencyKey = true)
    (hx : ∃ x ∈ s.db.wallets, x.id = data.walletId ∧ x.userId = data.userId) :
    GrantsBank P config (bookkeeping A) q i s data := by
  intro t u a b hst hc hfunds hlock _
  obtain ⟨r, hh⟩ := hc.history
  obtain ⟨x, hx, hid, huser⟩ := hx
  have hdb := data.db_of_commits hc
  have he : t.db.Effect u.db := by
    rw [hdb]
    exact .bankAccept data a b hamount hkey ⟨x, (grows_of_runs hst).wallets x hx, hid, huser⟩
      hfunds
  refine grant_append hc.inv.2.2 hc.unique he hh rfl (by rw [hdb])
    hlock rfl fun r hr hp => ?_
  rw [hdb] at hr
  rcases List.mem_append.mp hr with hold | hnew
  · exact hold
  · rw [List.mem_singleton.mp hnew] at hp
    cases hp

end Grants

end WalletApi
