import WalletApi.Accounting.Totals
import WalletApi.Safety.Api

/-!
The journal and the tables of requests reconcile.

The balance of a wallet is what was funded, plus what other wallets sent to it,
minus what it sent, minus what went to banks and did not come back
(`sumSuccessfulBalance_eq_books`). The rows of the journal fall into five kinds,
and each kind is matched with the requests it comes from.
-/

namespace WalletApi

open Accounting WalletTransactionRepository

/-! ### What the requests add up to -/

namespace Db

variable (d : Db)

/-- The row is a completed funding credit. -/
def Funds (r : WalletTransaction) : Prop :=
  r.type = .credit ∧ r.purpose = .flutterwaveFunding ∧ r.status = .successful

/-- The withdrawal has been given back. -/
def Reversed (w : Withdrawal) : Prop :=
  ∃ r ∈ d.walletTransactions, r.purpose = .reversal ∧ r.withdrawalId = some w.id

instance : DecidablePred Funds := fun r =>
  inferInstanceAs (Decidable (r.type = .credit ∧ r.purpose = .flutterwaveFunding ∧
    r.status = .successful))

instance : DecidablePred d.Reversed := fun w =>
  inferInstanceAs (Decidable (∃ r ∈ d.walletTransactions, r.purpose = .reversal ∧
    r.withdrawalId = some w.id))

/-- The completed funding credits of the transfers of a wallet. -/
def funded (walletId : String) : ℤ :=
  total (·.amount) (fun r => Funds r ∧ ∃ t ∈ d.transfers, t.walletId = walletId ∧
    r.transferId = some t.id) d.walletTransactions

/-- What other wallets have sent to a wallet. -/
def received (walletId : String) : ℤ :=
  total (·.amount) (fun w => w.destinationType = .wallet ∧ w.destinationWalletId = some walletId)
    d.withdrawals

/-- What a wallet has sent to others. -/
def sent (walletId : String) : ℤ :=
  total (·.amount) (fun w => w.destinationType = .wallet ∧ w.walletId = walletId) d.withdrawals

/-- What has gone from a wallet to banks and was not given back. -/
def paidOut (walletId : String) : ℤ :=
  total (·.amount) (fun w => (w.destinationType = .bank ∧ w.walletId = walletId) ∧ ¬ d.Reversed w)
    d.withdrawals

def totalBalance : ℤ := (d.wallets.map fun x => sumSuccessfulBalance d x.id).sum

def totalFunded : ℤ := total (·.amount) Funds d.walletTransactions

def totalPaidOut : ℤ :=
  total (·.amount) (fun w => w.destinationType = .bank ∧ ¬ d.Reversed w) d.withdrawals

end Db

/-! ### The kinds of rows -/

inductive Entry
  | funding | credit | reversal | debit | payout
  deriving DecidableEq

/-- The kind of a row that counts. -/
def WalletTransaction.entry (r : WalletTransaction) : Option Entry :=
  match r.purpose, r.type with
  | .flutterwaveFunding, _ => if r.status = .successful then some .funding else none
  | .p2p, .credit => some .credit
  | .p2p, .debit => some .debit
  | .bankPayout, _ => some .payout
  | .reversal, _ => some .reversal

/-- The withdrawals that have a row of the kind. -/
def Entry.source (d : Db) : Entry → Withdrawal → Prop
  | .funding, _ => False
  | .credit, w | .debit, w => w.destinationType = .wallet
  | .payout, w => w.destinationType = .bank
  | .reversal, w => w.destinationType = .bank ∧ d.Reversed w

instance (d : Db) : ∀ k, DecidablePred (Entry.source d k)
  | .funding => fun _ => inferInstanceAs (Decidable False)
  | .credit | .debit => fun w => inferInstanceAs (Decidable (w.destinationType = .wallet))
  | .payout => fun w => inferInstanceAs (Decidable (w.destinationType = .bank))
  | .reversal => fun w => inferInstanceAs (Decidable (w.destinationType = .bank ∧ d.Reversed w))

/-- The row of the kind that a withdrawal has. -/
def Entry.data : Entry → Withdrawal → CreateWalletTransactionData
  | .debit | .payout => Withdrawal.debitData
  | .credit => Withdrawal.creditData
  | .reversal | .funding => Withdrawal.reversalData

variable {d : Db} {r r' : WalletTransaction} {w : Withdrawal} {k : Entry}

theorem Withdrawal.entry_debit (hr : r.MadeFrom w.debitData) :
    r.entry = some (if w.destinationType = .wallet then .debit else .payout) := by
  rw [hr, Withdrawal.debitData]
  cases hd : w.destinationType <;> rfl

theorem Withdrawal.entry_credit (hr : r.MadeFrom w.creditData) : r.entry = some .credit := by
  rw [hr]
  rfl

theorem Withdrawal.entry_reversal (hr : r.MadeFrom w.reversalData) : r.entry = some .reversal := by
  rw [hr]
  rfl

theorem Transfer.entry_credit {t : Transfer} (hr : r.core.MadeFrom t.creditData) :
    r.entry = if r.status = .successful then some .funding else none := by
  have hp : r.core.purpose = .flutterwaveFunding := by rw [hr]; rfl
  have hpurpose : r.purpose = .flutterwaveFunding := hp
  rw [WalletTransaction.entry, hpurpose]

/-- The transfer that a funding credit comes from. -/
theorem exists_transfer (hb : d.Books) (hr : r ∈ d.walletTransactions)
    (hp : r.purpose = .flutterwaveFunding) :
    ∃ t ∈ d.transfers, r.core.MadeFrom t.creditData := by
  cases hb.origin r hr with
  | funding t ht hmade _ => exact ⟨t, ht, hmade⟩
  | debit w _ hmade =>
      rw [hmade] at hp
      have hne : w.debitData.purpose ≠ .flutterwaveFunding := by
        unfold Withdrawal.debitData
        split <;> nofun
      exact absurd hp hne
  | credit w _ _ hmade =>
      rw [hmade] at hp
      cases hp
  | reversal w _ _ hmade =>
      rw [hmade] at hp
      cases hp

/-- The row and the withdrawal it comes from. -/
theorem exists_source (hb : d.Books) (hr : r ∈ d.walletTransactions) (he : r.entry = some k)
    (hk : k ≠ .funding) : ∃ w ∈ d.withdrawals, k.source d w ∧ r.MadeFrom (k.data w) := by
  cases hb.origin r hr with
  | funding t _ hmade _ =>
      rw [Transfer.entry_credit hmade] at he
      split at he
      · exact absurd (Option.some.inj he).symm hk
      · cases he
  | debit w hw hmade =>
      rw [Withdrawal.entry_debit hmade] at he
      cases hd : w.destinationType with
      | wallet =>
          rw [hd, if_pos rfl] at he
          cases he
          exact ⟨w, hw, hd, hmade⟩
      | bank =>
          rw [hd, if_neg nofun] at he
          cases he
          exact ⟨w, hw, hd, hmade⟩
  | credit w hw hd hmade =>
      rw [Withdrawal.entry_credit hmade] at he
      cases he
      exact ⟨w, hw, hd, hmade⟩
  | reversal w hw hd hmade =>
      rw [Withdrawal.entry_reversal hmade] at he
      cases he
      refine ⟨w, hw, ⟨hd, r, hr, ?_, ?_⟩, hmade⟩
      · rw [hmade]
        rfl
      · rw [hmade]
        rfl

theorem Entry.data_withdrawalId (k : Entry) (w : Withdrawal) :
    (k.data w).withdrawalId = some w.id := by
  cases k with
  | debit | payout => exact w.debitData_withdrawalId
  | credit | reversal | funding => rfl

theorem Entry.data_amount (k : Entry) (w : Withdrawal) : (k.data w).amount = w.amount := by
  cases k with
  | debit | payout => exact w.debitData_amount
  | credit | reversal | funding => rfl

/-- Each kind of row exists for the withdrawals that have it. -/
theorem exists_entry (hu : d.Unique) (hb : d.Books) (hw : w ∈ d.withdrawals)
    (hs : k.source d w) : ∃ r ∈ d.walletTransactions, r.entry = some k ∧ r.MadeFrom (k.data w) := by
  have hbooked := hb.withdrawal w hw
  cases k with
  | funding => exact hs.elim
  | debit =>
      obtain ⟨r, hr, -, hmade⟩ := hbooked.debit
      refine ⟨r, hr, ?_, hmade⟩
      have hwallet : w.destinationType = .wallet := hs
      rw [Withdrawal.entry_debit hmade, if_pos hwallet]
  | payout =>
      obtain ⟨r, hr, -, hmade⟩ := hbooked.debit
      refine ⟨r, hr, ?_, hmade⟩
      have hbank : w.destinationType = .bank := hs
      rw [Withdrawal.entry_debit hmade, if_neg (by rw [hbank]; nofun)]
  | credit =>
      obtain ⟨r, hr, -, hmade⟩ := hbooked.credit hs
      exact ⟨r, hr, Withdrawal.entry_credit hmade, hmade⟩
  | reversal =>
      obtain ⟨-, r, hr, hp, hid⟩ := hs
      have he : r.entry = some .reversal := by
        rw [WalletTransaction.entry, hp]
      obtain ⟨w', hw', -, hmade⟩ := exists_source hb hr he nofun
      have hid' : r.withdrawalId = some w'.id := by rw [hmade]; rfl
      rw [hu.withdrawal_ext hw hw' (Option.some.inj (hid.symm.trans hid'))]
      exact ⟨r, hr, he, hmade⟩

/-- Two rows made from the same data are one. -/
theorem eq_of_madeFrom (hu : d.Unique) {data : CreateWalletTransactionData}
    (hr : r ∈ d.walletTransactions) (hr' : r' ∈ d.walletTransactions) (h : r.MadeFrom data)
    (h' : r'.MadeFrom data) : r = r' := by
  refine hu.row_of_idempotencyKey hr hr' ?_
  rw [h, h']
  rfl

/-- What the rows of one kind add up to for a wallet. -/
def Db.entries (d : Db) (k : Entry) (walletId : String) : ℤ :=
  total (·.amount) (fun r => r.entry = some k ∧ r.walletId = walletId) d.walletTransactions

/-- The rows of one kind add up to the withdrawals they come from. -/
theorem entries_eq (hu : d.Unique) (hb : d.Books) (hk : k ≠ .funding) (walletId : String) :
    d.entries k walletId =
      total (·.amount) (fun w => k.source d w ∧ (k.data w).walletId = walletId)
        d.withdrawals := by
  have hid : ∀ {r : WalletTransaction} {w : Withdrawal}, r.MadeFrom (k.data w) →
      r.withdrawalId = some w.id ∧ r.amount = w.amount ∧ r.walletId = (k.data w).walletId := by
    intro r w hr
    rw [hr]
    exact ⟨k.data_withdrawalId w, k.data_amount w, rfl⟩
  refine total_eq_of_match (f := (·.withdrawalId)) (g := fun w => some w.id)
    (.of_map _ hu.rowIds_nodup) (.of_map _ hu.withdrawalIds_nodup) ?_ ?_ ?_ ?_
  · rintro r hr r' hr' ⟨he, -⟩ ⟨he', -⟩ heq
    obtain ⟨w, hw, -, hmade⟩ := exists_source hb hr he hk
    obtain ⟨w', hw', -, hmade'⟩ := exists_source hb hr' he' hk
    have hww' : some w.id = some w'.id := (hid hmade).1.symm.trans (heq.trans (hid hmade').1)
    rw [← hu.withdrawal_ext hw hw' (Option.some.inj hww')] at hmade'
    exact eq_of_madeFrom hu hr hr' hmade hmade'
  · intro w hw w' hw' _ _ heq
    exact hu.withdrawal_ext hw hw' (Option.some.inj heq)
  · rintro r hr ⟨he, hwallet⟩
    obtain ⟨w, hw, hs, hmade⟩ := exists_source hb hr he hk
    obtain ⟨h₁, h₂, h₃⟩ := hid hmade
    exact ⟨w, hw, ⟨hs, h₃.symm.trans hwallet⟩, h₁.symm, h₂.symm⟩
  · rintro w hw ⟨hs, hwallet⟩
    obtain ⟨r, hr, he, hmade⟩ := exists_entry hu hb hw hs
    obtain ⟨h₁, -, h₃⟩ := hid hmade
    exact ⟨r, hr, ⟨he, h₃.trans hwallet⟩, h₁⟩

/-! ### The balance of a wallet -/

/-- What a row does to the balance, by its kind. -/
theorem signed_eq (h : r.Origin d) :
    r.signed + (if r.entry = some .debit then r.amount else 0) +
        (if r.entry = some .payout then r.amount else 0) =
      (if r.entry = some .funding then r.amount else 0) +
        (if r.entry = some .credit then r.amount else 0) +
        (if r.entry = some .reversal then r.amount else 0) := by
  cases h with
  | funding t _ hmade hs =>
      have ht : r.core.type = .credit := by rw [hmade]; rfl
      have htype : r.type = .credit := ht
      rw [Transfer.entry_credit hmade, WalletTransaction.signed, htype]
      rcases hs with hs | hs <;> simp [hs]
  | debit w _ hmade =>
      have htype : r.type = .debit := by rw [hmade]; exact w.debitData_type
      have hs : r.status = .successful := hmade.status.trans w.debitData_status
      rw [Withdrawal.entry_debit hmade, WalletTransaction.signed, htype, hs]
      cases w.destinationType <;> simp
  | credit w _ _ hmade =>
      have htype : r.type = .credit := by rw [hmade]; rfl
      have hs : r.status = .successful := hmade.status
      rw [Withdrawal.entry_credit hmade, WalletTransaction.signed, htype, hs]
      simp
  | reversal w _ _ hmade =>
      have htype : r.type = .credit := by rw [hmade]; rfl
      have hs : r.status = .successful := hmade.status
      rw [Withdrawal.entry_reversal hmade, WalletTransaction.signed, htype, hs]
      simp

theorem effect_eq (h : r.Origin d) (walletId : String) :
    r.effect walletId + (if r.entry = some .debit ∧ r.walletId = walletId then r.amount else 0) +
        (if r.entry = some .payout ∧ r.walletId = walletId then r.amount else 0) =
      (if r.entry = some .funding ∧ r.walletId = walletId then r.amount else 0) +
        (if r.entry = some .credit ∧ r.walletId = walletId then r.amount else 0) +
        (if r.entry = some .reversal ∧ r.walletId = walletId then r.amount else 0) := by
  by_cases hw : r.walletId = walletId
  · simp only [WalletTransaction.effect, hw, and_true, if_true]
    exact signed_eq h
  · simp [WalletTransaction.effect, hw]

/-- The balance, kind by kind. -/
theorem sumSuccessfulBalance_eq_entries (hb : d.Books) (walletId : String) :
    sumSuccessfulBalance d walletId + d.entries .debit walletId + d.entries .payout walletId =
      d.entries .funding walletId + d.entries .credit walletId +
        d.entries .reversal walletId := by
  simp only [sumSuccessfulBalance_eq_sum_effect, Db.entries, total_eq_sum_ite, ← List.sum_map_add]
  exact congrArg List.sum (List.map_congr_left fun r hr => effect_eq (hb.origin r hr) walletId)

/-- A completed funding is one of a transfer of the wallet. -/
theorem entry_funding_iff (hu : d.Unique) (hb : d.Books) (hr : r ∈ d.walletTransactions)
    (walletId : String) :
    r.entry = some .funding ∧ r.walletId = walletId ↔
      Db.Funds r ∧ ∃ t ∈ d.transfers, t.walletId = walletId ∧ r.transferId = some t.id := by
  constructor
  · rintro ⟨he, hwallet⟩
    have hkind : r.purpose = .flutterwaveFunding ∧ r.status = .successful := by
      unfold WalletTransaction.entry at he
      split at he
      · rename_i hp
        split at he
        · exact ⟨hp, by assumption⟩
        · cases he
      all_goals cases he
    obtain ⟨t, ht, hcore⟩ := exists_transfer hb hr hkind.1
    have htype : r.core.type = .credit := by rw [hcore]; rfl
    have hid : r.core.transferId = some t.id := by rw [hcore]; rfl
    have hw : r.core.walletId = t.walletId := by rw [hcore]; rfl
    exact ⟨⟨htype, hkind⟩, t, ht, hw.symm.trans hwallet, hid⟩
  · rintro ⟨⟨htype, hp, hs⟩, t, ht, hwallet, hid⟩
    obtain ⟨t', ht', hcore⟩ := exists_transfer hb hr hp
    have hid' : r.core.transferId = some t'.id := by rw [hcore]; rfl
    have hw : r.core.walletId = t'.walletId := by rw [hcore]; rfl
    have htt' : t = t' := hu.transfer_ext ht ht' (Option.some.inj (hid.symm.trans hid'))
    refine ⟨?_, hw.trans (htt' ▸ hwallet)⟩
    rw [Transfer.entry_credit hcore, if_pos hs]

/-! ### The requests that the kinds of rows stand for -/

section Kinds

variable (hu : d.Unique) (hb : d.Books) (walletId : String)

include hu hb

theorem entries_funding : d.entries .funding walletId = d.funded walletId :=
  total_congr _ _ _ fun _ hr => entry_funding_iff hu hb hr walletId

theorem entries_credit : d.entries .credit walletId = d.received walletId := by
  refine (entries_eq hu hb (by decide) walletId).trans (total_congr _ _ _ fun w hw => ?_)
  refine and_congr_right fun hd => ?_
  obtain ⟨x, -, hx⟩ := (hb.withdrawal w hw).destination hd
  show w.destinationWalletId.getD "" = walletId ↔ w.destinationWalletId = some walletId
  rw [hx, Option.getD_some, Option.some.injEq]

theorem entries_debit : d.entries .debit walletId = d.sent walletId := by
  refine (entries_eq hu hb (by decide) walletId).trans (total_congr _ _ _ fun w _ => ?_)
  show w.destinationType = .wallet ∧ w.debitData.walletId = walletId ↔ _
  rw [w.debitData_walletId]

/-- The payouts that were not given back. -/
theorem entries_payout :
    d.entries .payout walletId = d.paidOut walletId + d.entries .reversal walletId := by
  have hpayout : d.entries .payout walletId = total (·.amount)
      (fun w => w.destinationType = .bank ∧ w.walletId = walletId) d.withdrawals := by
    refine (entries_eq hu hb (by decide) walletId).trans (total_congr _ _ _ fun w _ => ?_)
    show w.destinationType = .bank ∧ w.debitData.walletId = walletId ↔ _
    rw [w.debitData_walletId]
  have hreversal : d.entries .reversal walletId = total (·.amount)
      (fun w => (w.destinationType = .bank ∧ w.walletId = walletId) ∧ d.Reversed w)
      d.withdrawals := by
    refine (entries_eq hu hb (by decide) walletId).trans (total_congr _ _ _ fun w _ => ?_)
    exact and_right_comm
  rw [hpayout, hreversal, Db.paidOut, add_comm]
  exact (total_add_total_not _ _ _ _).symm

/-- The balance of a wallet, from the tables of requests. -/
theorem sumSuccessfulBalance_eq_books :
    sumSuccessfulBalance d walletId =
      d.funded walletId + d.received walletId - d.sent walletId - d.paidOut walletId := by
  have h := sumSuccessfulBalance_eq_entries hb walletId
  rw [entries_debit hu hb, entries_payout hu hb, entries_funding hu hb, entries_credit hu hb] at h
  omega

end Kinds

/-! ### All balances together -/

theorem Db.Unique.walletIds_nodup (hu : d.Unique) : (d.wallets.map (·.id)).Nodup :=
  nodup_map_of_keys Key.walletId hu.wallets fun _ => .head _

theorem Db.Unique.walletRefs_nodup (hu : d.Unique) :
    (d.wallets.map fun x => some x.id).Nodup := by
  have h := hu.walletIds_nodup.map (Option.some_injective _)
  rw [List.map_map] at h
  exact h

section Totals

variable (hu : d.Unique) (hb : d.Books)

include hu hb

theorem sum_funded : (d.wallets.map fun x => d.funded x.id).sum = d.totalFunded := by
  have hpart : ((d.wallets.map (·.id)).map fun id => total (·.amount)
      (fun r => r.entry = some .funding ∧ r.walletId = id) d.walletTransactions).sum =
      total (·.amount) (fun r => r.entry = some .funding) d.walletTransactions := by
    refine sum_total_eq hu.walletIds_nodup _ _ _ fun r hr he => ?_
    obtain ⟨-, t, ht, hid, -⟩ := (entry_funding_iff hu hb hr r.walletId).mp ⟨he, rfl⟩
    obtain ⟨x, hx, hxid, -⟩ := (hb.transfer t ht).wallet
    exact List.mem_map.mpr ⟨x, hx, hxid.trans hid⟩
  have hall : total (·.amount) (fun r => r.entry = some .funding) d.walletTransactions =
      d.totalFunded := by
    refine total_congr _ _ _ fun r hr => ⟨fun he => ?_, fun hf => ?_⟩
    · exact ((entry_funding_iff hu hb hr r.walletId).mp ⟨he, rfl⟩).1
    · obtain ⟨t, ht, hcore⟩ := exists_transfer hb hr hf.2.1
      rw [Transfer.entry_credit hcore, if_pos hf.2.2]
  rw [List.map_map] at hpart
  rw [← hall, ← hpart]
  exact congrArg List.sum (List.map_congr_left fun x _ => (entries_funding hu hb x.id).symm)

/-- What is sent from one wallet to another leaves no trace in the total. -/
theorem sum_received : (d.wallets.map fun x => d.received x.id).sum =
    (d.wallets.map fun x => d.sent x.id).sum := by
  have hin : ((d.wallets.map fun x => some x.id).map fun id => total (·.amount)
      (fun w => w.destinationType = .wallet ∧ w.destinationWalletId = id) d.withdrawals).sum =
      total (·.amount) (fun w => w.destinationType = .wallet) d.withdrawals := by
    refine sum_total_eq hu.walletRefs_nodup _ _ _ fun w hw hd => ?_
    obtain ⟨x, hx, hxid⟩ := (hb.withdrawal w hw).destination hd
    exact List.mem_map.mpr ⟨x, hx, hxid.symm⟩
  have hout : ((d.wallets.map (·.id)).map fun id => total (·.amount)
      (fun w => w.destinationType = .wallet ∧ w.walletId = id) d.withdrawals).sum =
      total (·.amount) (fun w => w.destinationType = .wallet) d.withdrawals := by
    refine sum_total_eq hu.walletIds_nodup _ _ _ fun w hw _ => ?_
    obtain ⟨x, hx, hxid, -⟩ := (hb.withdrawal w hw).wallet
    exact List.mem_map.mpr ⟨x, hx, hxid⟩
  rw [List.map_map] at hin hout
  exact hin.trans hout.symm

theorem sum_paidOut : (d.wallets.map fun x => d.paidOut x.id).sum = d.totalPaidOut := by
  have hpart : ((d.wallets.map (·.id)).map fun id => total (·.amount)
      (fun w => (w.destinationType = .bank ∧ ¬ d.Reversed w) ∧ w.walletId = id)
      d.withdrawals).sum = d.totalPaidOut := by
    refine sum_total_eq hu.walletIds_nodup _ _ _ fun w hw _ => ?_
    obtain ⟨x, hx, hxid, -⟩ := (hb.withdrawal w hw).wallet
    exact List.mem_map.mpr ⟨x, hx, hxid⟩
  rw [List.map_map] at hpart
  rw [← hpart]
  refine congrArg List.sum (List.map_congr_left fun x _ => ?_)
  exact total_congr _ _ _ fun w _ => and_right_comm

/-- Only what is funded and what goes to banks changes the total. -/
theorem totalBalance_eq : d.totalBalance = d.totalFunded - d.totalPaidOut := by
  have h : d.totalBalance + (d.wallets.map fun x => d.sent x.id).sum +
      (d.wallets.map fun x => d.paidOut x.id).sum =
      (d.wallets.map fun x => d.funded x.id).sum +
        (d.wallets.map fun x => d.received x.id).sum := by
    simp only [Db.totalBalance, ← List.sum_map_add]
    refine congrArg List.sum (List.map_congr_left fun x _ => ?_)
    have hx := sumSuccessfulBalance_eq_books hu hb x.id
    omega
  rw [sum_funded hu hb, sum_received hu hb, sum_paidOut hu hb] at h
  omega

end Totals

/-! ### The result -/

section Runs

open Concurrency Schedule

variable {P : Platform} {config : Config}

/-- In every state that a run reaches, the journal and the tables of requests
agree on every balance and on the sum of all balances. -/
theorem journal_reconciles {cfg : Machine.Config (walletApi P config)}
    (h : Machine.Reachable (requests P config) World.initial cfg) :
    (∀ walletId, sumSuccessfulBalance cfg.state.db walletId =
      cfg.state.db.funded walletId + cfg.state.db.received walletId -
        cfg.state.db.sent walletId - cfg.state.db.paidOut walletId) ∧
    cfg.state.db.totalBalance = cfg.state.db.totalFunded - cfg.state.db.totalPaidOut := by
  obtain ⟨hu, hb, -⟩ := books_of_reachable h
  exact ⟨sumSuccessfulBalance_eq_books hu hb, totalBalance_eq hu hb⟩

/-- Ada is funded with 1000, sends 400 to Bob and withdraws twice; one of the
withdrawals is given back. -/
def reconciledSchedule : List (Machine.Action (walletApi platform mockConfig)) :=
  fundedAda ++ sendToBob 6 idempotencyKey "x1" "r2" "r3" ++
    payToBank 7 secondKey "uuid" "x2" "r4" ++ payToBank 8 thirdKey "uuid'" "x3" "r5" ++
    payout 9 "x2" {} ++ settle 10 "x2" "r6"

theorem journal_reconciles_schedule :
    ∃ cfg, Machine.replayUnder (requests platform mockConfig) (.initial World.initial)
        reconciledSchedule = some cfg ∧
      cfg.state.db.funded "w1" = 1000 ∧ cfg.state.db.sent "w1" = 400 ∧
      cfg.state.db.paidOut "w1" = 300 ∧ sumSuccessfulBalance cfg.state.db "w1" = 300 := by
  have hrun : (Machine.replayUnder (requests platform mockConfig) (.initial World.initial)
      reconciledSchedule).any fun cfg => cfg.state.db.funded "w1" = 1000 ∧
        cfg.state.db.received "w1" = 0 ∧ cfg.state.db.sent "w1" = 400 ∧
        cfg.state.db.paidOut "w1" = 300 := by decide +kernel
  obtain ⟨cfg, hcfg, hvalues⟩ := (Option.any_eq_true ..).mp hrun
  obtain ⟨hfunded, hreceived, hsent, hpaid⟩ := of_decide_eq_true hvalues
  have hbalance := (journal_reconciles (.replayUnder hcfg)).1 "w1"
  exact ⟨cfg, hcfg, hfunded, hsent, hpaid, by omega⟩

end Runs

end WalletApi
