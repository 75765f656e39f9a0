import WalletApi.Safety.Reconciliation

/-!
Every payout is backed by a debit.

The provider is asked for a transfer only on behalf of a committed withdrawal to
a bank, with what that withdrawal says, and references tell withdrawals apart. So
whatever the provider executes has been debited before, as long as it executes a
reference only once.
-/

namespace WalletApi

open Accounting Concurrency Schedule WithdrawalPayoutService

variable {P : Platform} {config : Config} {A : Call → ℕ → Cmd → Choice → World → Prop} {i : ℕ}
  {c : Cmd} {ch : Choice} {s t : World} {d : Db} {w w' : Withdrawal}

/-! ### The books of the provider -/

namespace World

/-- What a step does to the books of the provider. -/
theorem exec_bank {r : Except Err c.Resp} (h : exec P config i c ch s = some (r, t)) :
    t.bank = s.bank ∨
    (∃ params, c = .initiateBankTransfer params ∧
      t.bank = (s.receiveBankTransfer params ch).bank) ∨
    ∃ id state, c = .finishBankTransfer id state ∧
      t.bank = (s.finishBankTransfer id state).bank := by
  rcases exec_eq_some h with ⟨-, -, -, rfl⟩ | ⟨r', s', hp, -, rfl⟩
  · exact .inl rfl
  · cases c with
    | initiateBankTransfer params =>
        simp only [perform] at hp
        split at hp
        · cases hp
          exact .inl rfl
        · cases hp
          exact .inr (.inl ⟨params, rfl, rfl⟩)
    | finishBankTransfer id state =>
        cases hp
        exact .inr (.inr ⟨id, state, rfl, rfl⟩)
    | _ => exact .inl ((performed hp).bank rfl)

/-- A transfer after a step was there before, or has just been asked for. -/
theorem exec_transfers {r : Except Err c.Resp} (h : exec P config i c ch s = some (r, t))
    {x : BankTransfer} (hx : x ∈ t.bank.transfers) :
    (∃ x₀ ∈ s.bank.transfers, x.params = x₀.params) ∨ c = .initiateBankTransfer x.params := by
  rcases exec_bank h with hb | ⟨params, rfl, hb⟩ | ⟨id, state, rfl, hb⟩
  · exact .inl ⟨x, hb ▸ hx, rfl⟩
  · rw [hb, receiveBankTransfer] at hx
    dsimp only at hx
    split at hx
    · rcases List.mem_append.mp hx with hold | hnew
      · exact .inl ⟨x, hold, rfl⟩
      · rw [List.mem_singleton.mp hnew]
        exact .inr rfl
    · exact .inl ⟨x, hx, rfl⟩
  · rw [hb] at hx
    obtain ⟨x₀, hx₀, rfl⟩ := List.mem_map.mp hx
    refine .inl ⟨x₀, hx₀, ?_⟩
    split <;> rfl

/-- Every transfer of the provider has been asked for. -/
def Requested (s : World) : Prop :=
  ∀ x ∈ s.bank.transfers, ∃ e ∈ s.history, e.request = some x.params

end World

theorem requested_of_reachable {cfg : Machine.Config (walletApi P config)}
    (h : Machine.Reachable (api P config A) World.initial cfg) : cfg.state.Requested := by
  refine Machine.Reachable.invariant (I := World.Requested)
    (fun x hx => absurd hx List.not_mem_nil) ?_ (fun hs => hs) h
  intro call i c ch s r t _ he hs x hx
  obtain ⟨took, hh⟩ := World.exec_history he
  rw [hh]
  rcases World.exec_transfers he hx with ⟨x₀, hx₀, hparams⟩ | rfl
  · obtain ⟨e, he, hreq⟩ := hs x₀ hx₀
    exact ⟨e, .tail _ he, hparams ▸ hreq⟩
  · exact ⟨_, .head _, rfl⟩

/-! ### What a request is backed by -/

/-- A withdrawal to a bank with its debit stands behind the request. -/
def InitiateBankTransferParams.Backed (params : InitiateBankTransferParams) (d : Db) : Prop :=
  ∃ w ∈ d.withdrawals, w.destinationType = .bank ∧
    w.providerReference = some params.reference ∧ w.amount = params.amountKobo ∧
    w.bankCode = some params.bankCode ∧ w.accountNumber = some params.accountNumber ∧
    ∃ r ∈ d.walletTransactions, r.type = .debit ∧ r.purpose = .bankPayout ∧
      r.status = .successful ∧ r.walletId = w.walletId ∧ r.withdrawalId = some w.id ∧
      r.reference = some params.reference ∧ r.amount = params.amountKobo

theorem getD_of_isSome {α : Type} {x : Option α} (h : x.isSome) (y : α) : x = some (x.getD y) := by
  cases x with
  | none => cases h
  | some x => rfl

theorem backed (hb : d.Books) (hw : w ∈ d.withdrawals) (hd : w.destinationType = .bank) :
    (bankTransferParams w).Backed d := by
  obtain ⟨hreference, hcode, haccount⟩ := (hb.withdrawal w hw).bank hd
  obtain ⟨r, hr, -, hmade⟩ := (hb.withdrawal w hw).debit
  have hdata : r.type = .debit ∧ r.purpose = .bankPayout ∧ r.status = .successful ∧
      r.walletId = w.walletId ∧ r.withdrawalId = some w.id ∧ r.reference = w.providerReference ∧
      r.amount = w.amount := by
    rw [hmade, Withdrawal.debitData, hd]
    exact ⟨rfl, rfl, rfl, rfl, rfl, rfl, rfl⟩
  obtain ⟨htype, hpurpose, hs, hwallet, hid, href, hamount⟩ := hdata
  exact ⟨w, hw, hd, getD_of_isSome hreference _, rfl, getD_of_isSome hcode _,
    getD_of_isSome haccount _, r, hr, htype, hpurpose, hs, hwallet, hid,
    href.trans (getD_of_isSome hreference _), hamount⟩

/-- References tell withdrawals apart. -/
theorem eq_of_reference (hu : d.Unique) (hb : d.Books) (hw : w ∈ d.withdrawals)
    (hw' : w' ∈ d.withdrawals) (hd : w.destinationType = .bank) (hd' : w'.destinationType = .bank)
    (h : (bankTransferParams w).reference = (bankTransferParams w').reference) : w = w' := by
  have hsome := getD_of_isSome ((hb.withdrawal w hw).bank hd).1 "null"
  have hsome' := getD_of_isSome ((hb.withdrawal w' hw').bank hd').1 "null"
  exact hu.withdrawal_of_providerReference hw hw' hsome (hsome'.trans (congrArg some h.symm))

/-! ### The result -/

/-- What the provider has executed. -/
def Bank.paid (bank : Bank) : ℤ :=
  total (·.params.amountKobo) (·.state = .successful) bank.transfers

/-- The provider has executed no reference twice. -/
def Bank.Once (bank : Bank) : Prop :=
  ((bank.transfers.filter fun x => x.state = .successful).map (·.params.reference)).Nodup

/-- What has been debited for payouts. -/
def Db.payoutDebits (d : Db) : ℤ :=
  total (·.amount) (fun r => r.type = .debit ∧ r.purpose = .bankPayout ∧ r.status = .successful)
    d.walletTransactions

theorem paid_le (hb : d.Books) {bank : Bank} (honce : bank.Once)
    (h : ∀ x ∈ bank.transfers, x.params.Backed d) : bank.paid ≤ d.payoutDebits := by
  have honce' : ((bank.transfers.filter fun x => x.state = .successful).map
      fun x => some x.params.reference).Nodup := by
    have hmap := List.Nodup.map (Option.some_injective _) honce
    rw [List.map_map] at hmap
    exact hmap
  refine total_le_of_match (g := (·.reference)) honce' ?_ ?_
  · rintro r hr ⟨htype, -, -⟩
    cases hb.origin r hr with
    | funding t _ hmade _ =>
        have hcore : r.core.type = .credit := by rw [hmade]; rfl
        cases htype.symm.trans hcore
    | debit w hw hmade =>
        have hamount : r.amount = w.amount := by rw [hmade]; exact w.debitData_amount
        exact hamount ▸ (hb.withdrawal w hw).amount.le
    | credit w _ _ hmade =>
        rw [hmade] at htype
        cases htype
    | reversal w _ _ hmade =>
        rw [hmade] at htype
        cases htype
  · intro x hx _
    obtain ⟨-, -, -, -, -, -, -, r, hr, htype, hpurpose, hs, -, -, href, hamount⟩ := h x hx
    exact ⟨r, hr, ⟨htype, hpurpose, hs⟩, href, hamount⟩

/-- In every run, a request to the provider carries what a committed withdrawal
with a debit says; requests with one reference are the same, and different
withdrawals have different references. If the provider executes a reference only
once, it has not paid out more than was debited. -/
theorem payouts_backed {cfg : Machine.Config (walletApi P config)}
    (h : Machine.Reachable (requests P config) World.initial cfg) :
    (∀ e ∈ cfg.state.history, ∀ params, e.request = some params → params.Backed cfg.state.db) ∧
    (∀ e ∈ cfg.state.history, ∀ e' ∈ cfg.state.history, ∀ params params',
      e.request = some params → e'.request = some params' →
      params.reference = params'.reference → params = params') ∧
    (∀ w ∈ cfg.state.db.withdrawals, ∀ w' ∈ cfg.state.db.withdrawals,
      w.destinationType = .bank → w'.destinationType = .bank → w.id ≠ w'.id →
      (bankTransferParams w).reference ≠ (bankTransferParams w').reference) ∧
    (cfg.state.bank.Once → cfg.state.bank.paid ≤ cfg.state.db.payoutDebits) := by
  obtain ⟨hu, hb, hrec⟩ := books_of_reachable h
  refine ⟨?_, ?_, ?_, ?_⟩
  · intro e he params hp
    obtain ⟨w, hw, hd, rfl⟩ := hrec.request e he params hp
    exact backed hb hw hd
  · intro e he e' he' params params' hp hp' href
    obtain ⟨w, hw, hd, rfl⟩ := hrec.request e he params hp
    obtain ⟨w', hw', hd', rfl⟩ := hrec.request e' he' params' hp'
    rw [eq_of_reference hu hb hw hw' hd hd' href]
  · intro w hw w' hw' hd hd' hid href
    exact hid (congrArg Withdrawal.id (eq_of_reference hu hb hw hw' hd hd' href))
  · intro honce
    refine paid_le hb honce fun x hx => ?_
    obtain ⟨e, he, hp⟩ := requested_of_reachable h x hx
    obtain ⟨w, hw, hd, hparams⟩ := hrec.request e he _ hp
    rw [hparams]
    exact backed hb hw hd

/-- One of two withdrawals is paid out. -/
def paidSchedule : List (Machine.Action (walletApi platform liveConfig)) :=
  fundedAda ++ payToBank 6 idempotencyKey "uuid" "x1" "r2" ++
    payToBank 7 secondKey "uuid'" "x2" "r3" ++ payout 8 "x1" (accepts "p1") ++
    [.spawn 9 (.providerFinish "p1" .successful)] ++ calm 9 1

theorem payouts_backed_schedule :
    ∃ cfg, Machine.replayUnder (requests platform liveConfig) (.initial World.initial)
        paidSchedule = some cfg ∧
      cfg.state.bank.paid = 300 ∧ 300 ≤ cfg.state.db.payoutDebits := by
  have hrun : (Machine.replayUnder (requests platform liveConfig) (.initial World.initial)
      paidSchedule).any fun cfg => ((cfg.state.bank.transfers.filter fun x =>
        x.state = .successful).map (·.params.reference)).Nodup ∧ cfg.state.bank.paid = 300 := by
    decide +kernel
  obtain ⟨cfg, hcfg, hvalues⟩ := (Option.any_eq_true ..).mp hrun
  obtain ⟨honce, hpaid⟩ := of_decide_eq_true hvalues
  have hle := (payouts_backed (.replayUnder hcfg)).2.2.2 honce
  exact ⟨cfg, hcfg, hpaid, hpaid ▸ hle⟩

end WalletApi
