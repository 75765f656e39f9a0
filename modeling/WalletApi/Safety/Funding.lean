import WalletApi.Safety.Reconciliation

/-!
A deposit is credited at most once.

Whatever webhooks arrive and however often they are processed, a transfer has
one row in the journal at most: all rows that are linked to it carry its key.
The row is pending until the money has been confirmed and counts from then on.
-/

namespace WalletApi

open Accounting Concurrency Schedule

variable {P : Platform} {config : Config} {d : Db} {t : Transfer} {r r' : WalletTransaction}

/-- The successful credits that are linked to a transfer. -/
def Db.creditsOf (d : Db) (t : Transfer) : List WalletTransaction :=
  d.walletTransactions.filter fun r =>
    r.type = .credit ∧ r.status = .successful ∧ r.transferId = some t.id

/-- The database as it would be had the transfer left no trace in the journal. -/
def Db.without (d : Db) (t : Transfer) : Db :=
  { d with walletTransactions := d.walletTransactions.filter fun r => r.transferId ≠ some t.id }

/-- A row that is linked to a transfer is its credit. -/
theorem madeFrom_of_transferId (hu : d.Unique) (hb : d.Books) (ht : t ∈ d.transfers)
    (hr : r ∈ d.walletTransactions) (hid : r.transferId = some t.id) :
    r.core.MadeFrom t.creditData ∧ (r.status = .pending ∨ r.status = .successful) := by
  cases hb.origin r hr with
  | funding t' ht' hmade hs =>
      have hid' : r.core.transferId = some t'.id := by rw [hmade]; rfl
      rw [hu.transfer_ext ht ht' (Option.some.inj (hid.symm.trans hid'))]
      exact ⟨hmade, hs⟩
  | debit w _ hmade =>
      rw [hmade] at hid
      cases w.debitData_transferId.symm.trans hid
  | credit w _ _ hmade =>
      rw [hmade] at hid
      cases hid
  | reversal w _ _ hmade =>
      rw [hmade] at hid
      cases hid

theorem linked_unique (hu : d.Unique) (hb : d.Books) (ht : t ∈ d.transfers)
    (hr : r ∈ d.walletTransactions) (hr' : r' ∈ d.walletTransactions)
    (hid : r.transferId = some t.id) (hid' : r'.transferId = some t.id) : r = r' := by
  have hmade := (madeFrom_of_transferId hu hb ht hr hid).1
  have hmade' := (madeFrom_of_transferId hu hb ht hr' hid').1
  have hkey : r.core.idempotencyKey = r'.core.idempotencyKey := by
    rw [hmade, hmade']
    rfl
  exact hu.row_of_idempotencyKey hr hr' hkey

/-- The balance, with the rows of a transfer taken apart. -/
theorem sumSuccessfulBalance_without (d : Db) (t : Transfer) (walletId : String) :
    sumSuccessfulBalance d walletId = sumSuccessfulBalance (d.without t) walletId +
      total (·.effect walletId) (fun r => r.transferId = some t.id) d.walletTransactions := by
  rw [sumSuccessfulBalance_eq_sum_effect, sumSuccessfulBalance_eq_sum_effect, add_comm]
  exact sum_eq_total_add_total_not _ _ _

/-- A transfer has been credited with nothing, or once with its amount. -/
theorem creditsOf_eq (hu : d.Unique) (hb : d.Books) (ht : t ∈ d.transfers) :
    (d.creditsOf t = [] ∧ ∀ walletId,
      sumSuccessfulBalance d walletId = sumSuccessfulBalance (d.without t) walletId) ∨
    ∃ r, d.creditsOf t = [r] ∧ r.amount = t.amount ∧ r.walletId = t.walletId ∧ ∀ walletId,
      sumSuccessfulBalance d walletId = sumSuccessfulBalance (d.without t) walletId +
        if walletId = t.walletId then t.amount else 0 := by
  have hrows : d.walletTransactions.Nodup := .of_map _ hu.rowIds_nodup
  have hcredits : ∀ r, d.walletTransactions.filter (fun r => r.transferId = some t.id) = [r] →
      d.creditsOf t = [r].filter fun r => r.type = .credit ∧ r.status = .successful := by
    intro r h
    rw [← h, List.filter_filter, Db.creditsOf]
    refine List.filter_congr fun x _ => ?_
    simp [Bool.and_assoc]
  rcases filter_eq_nil_or_singleton hrows (p := fun r => r.transferId = some t.id)
    fun r hr r' hr' => linked_unique hu hb ht hr hr' with hnil | ⟨r, hr, hid, hone⟩
  · refine .inl ⟨?_, fun walletId => ?_⟩
    · refine List.filter_eq_nil_iff.mpr fun x hx hp => ?_
      exact List.filter_eq_nil_iff.mp hnil x hx (decide_eq_true (of_decide_eq_true hp).2.2)
    · rw [sumSuccessfulBalance_without d t, total, hnil]
      exact add_zero _
  · obtain ⟨hmade, hs⟩ := madeFrom_of_transferId hu hb ht hr hid
    have htype : r.core.type = .credit := by rw [hmade]; rfl
    have hamount : r.core.amount = t.amount := by rw [hmade]; rfl
    have hwallet : r.core.walletId = t.walletId := by rw [hmade]; rfl
    have hbalance (walletId : String) : sumSuccessfulBalance d walletId =
        sumSuccessfulBalance (d.without t) walletId + r.effect walletId := by
      rw [sumSuccessfulBalance_without d t, total, hone]
      exact congrArg _ (add_zero _)
    have htype' : r.type = .credit := htype
    rcases hs with hs | hs
    · refine .inl ⟨?_, fun walletId => ?_⟩
      · rw [hcredits r hone]
        simp [hs]
      · rw [hbalance walletId]
        simp [WalletTransaction.effect, WalletTransaction.signed, hs]
    · refine .inr ⟨r, ?_, hamount, hwallet, fun walletId => ?_⟩
      · rw [hcredits r hone]
        simp [hs, htype']
      · have hwallet' : r.walletId = t.walletId := hwallet
        have hamount' : r.amount = t.amount := hamount
        rw [hbalance walletId, WalletTransaction.effect, WalletTransaction.signed, hs, htype',
          hamount', hwallet']
        simp [eq_comm]

/-- In every state that a run reaches, with any webhooks, any executions of the
worker and any answers of the provider, a transfer has been credited at most
once, and has raised the balance of its wallet by nothing or by its amount. -/
theorem deposit_credited_once {cfg : Machine.Config (walletApi P config)}
    (h : Machine.Reachable (requests P config) World.initial cfg) (t : Transfer)
    (ht : t ∈ cfg.state.db.transfers) :
    (cfg.state.db.creditsOf t = [] ∧ ∀ walletId, sumSuccessfulBalance cfg.state.db walletId =
      sumSuccessfulBalance (cfg.state.db.without t) walletId) ∨
    ∃ r, cfg.state.db.creditsOf t = [r] ∧ r.amount = t.amount ∧ r.walletId = t.walletId ∧
      ∀ walletId, sumSuccessfulBalance cfg.state.db walletId =
        sumSuccessfulBalance (cfg.state.db.without t) walletId +
          if walletId = t.walletId then t.amount else 0 := by
  obtain ⟨hu, hb, -⟩ := books_of_reachable h
  exact creditsOf_eq hu hb ht

/-- Two events about one funding; one worker overtakes the other. -/
def twiceSchedule : List (Machine.Action (walletApi platform mockConfig)) :=
  register 0 "ada" "u1" "w1" ++ createPin 1 "u1" ++ postTransfer 2 "u1" ++
    webhook 3 "u1" "1" "e1" ++ webhook 4 "u1" "2" "e2" ++
    .spawn 5 .transferCompleteWorker :: generate 5 ["transfer-complete-e2"] ++ calm 5 3 ++
    completeTransfer 6 "e1" ++ calm 5 5

theorem deposit_credited_once_schedule :
    ∃ cfg, Machine.replayUnder (requests platform mockConfig) (.initial World.initial)
        twiceSchedule = some cfg ∧
      ∃ t ∈ cfg.state.db.transfers, ∃ r, cfg.state.db.creditsOf t = [r] := by
  have hrun : (Machine.replayUnder (requests platform mockConfig) (.initial World.initial)
      twiceSchedule).any fun cfg =>
        ∃ t ∈ cfg.state.db.transfers, cfg.state.db.creditsOf t ≠ [] := by decide +kernel
  obtain ⟨cfg, hcfg, hcredited⟩ := (Option.any_eq_true ..).mp hrun
  obtain ⟨t, ht, hne⟩ := of_decide_eq_true hcredited
  rcases deposit_credited_once (.replayUnder hcfg) t ht with ⟨hnil, -⟩ | ⟨r, hr, -⟩
  · exact absurd hnil hne
  · exact ⟨cfg, hcfg, t, ht, r, hr⟩

end WalletApi
