import WalletApi.Runs.AuthOperations
import WalletApi.Runs.Certificate

/-!
No wallet is ever overdrawn.

The balance is nowhere stored, so this rests on what the operations do under the
wallet's lock: a debit is inserted only against a balance that was read under
that lock and is still the balance when the transaction commits. Credits can only
raise a balance, including those that are completed later, because a row that
waits is a credit.

The result is about the six operations that write to the journal, called by any
number of threads with any arguments, next to registrations, which create the
users and their wallets.
-/

namespace WalletApi

open Concurrency ReadCommitted World Policy WithdrawalRepository WalletLedgerService Schedule

variable {P : Platform} {config : Config}

/-- No wallet is overdrawn, and only credits wait. -/
structure Db.Solvent (d : Db) : Prop where
  balance : ∀ walletId, 0 ≤ sumSuccessfulBalance d walletId
  pending : ∀ r ∈ d.walletTransactions, r.status = .pending → r.type = .credit ∧ 0 ≤ r.amount

/-! ### What a row does to the balances -/

theorem WalletTransaction.effect_of_status {r : WalletTransaction} (h : r.status ≠ .successful)
    (walletId : String) : r.effect walletId = 0 := by
  rw [effect, signed, if_neg h, ite_self]

theorem WalletTransaction.effect_credit_nonneg (r : WalletTransaction) (h : r.type = .credit)
    (hr : 0 ≤ r.amount) (walletId : String) : 0 ≤ r.effect walletId := by
  rw [effect, signed, if_pos h]
  split
  · split
    · exact hr
    · exact le_rfl
  · exact le_rfl

/-- A debit takes its amount from its own wallet, and nothing from the others. -/
theorem WalletTransaction.effect_debit {r : WalletTransaction} (h : r.type = .debit)
    (hs : r.status = .successful) (walletId : String) :
    r.effect walletId = if r.walletId = walletId then -r.amount else 0 := by
  have hcredit : ¬r.type = .credit := by rw [h]; nofun
  rw [effect, signed, if_pos hs, if_neg hcredit]

namespace Db.Solvent

variable {d d' : Db}

theorem empty : Db.empty.Solvent where
  balance w := by
    rw [sumSuccessfulBalance_eq_sum_effect]
    exact le_rfl
  pending _ hr := absurd hr List.not_mem_nil

theorem congr (h : d.Solvent) (hd : d'.walletTransactions = d.walletTransactions) :
    d'.Solvent where
  balance w := by
    have hjournal : d'.journalOf w = d.journalOf w := congrArg _ hd
    rw [sumSuccessfulBalance_congr hjournal]
    exact h.balance w
  pending := hd ▸ h.pending

/-- New rows that leave every balance at or above zero. -/
theorem append (h : d.Solvent) {rows : List WalletTransaction}
    (hd : d'.walletTransactions = d.walletTransactions ++ rows)
    (hbalance : ∀ w, 0 ≤ sumSuccessfulBalance d w + (rows.map (·.effect w)).sum)
    (hpending : ∀ r ∈ rows, r.status = .pending → r.type = .credit ∧ 0 ≤ r.amount) :
    d'.Solvent where
  balance w := by
    rw [sumSuccessfulBalance_append hd]
    exact hbalance w
  pending r hr hs := by
    rw [hd] at hr
    rcases List.mem_append.mp hr with hr | hr
    · exact h.pending r hr hs
    · exact hpending r hr hs

theorem credit (h : d.Solvent) {r : WalletTransaction}
    (hd : d'.walletTransactions = d.walletTransactions ++ [r]) (ht : r.type = .credit)
    (hr : 0 ≤ r.amount) : d'.Solvent := by
  refine h.append hd (fun w => ?_) fun x hx _ => ?_
  · have heffect := WalletTransaction.effect_credit_nonneg r ht hr w
    have hbalance := h.balance w
    rw [List.map_singleton, List.sum_singleton]
    omega
  · rw [List.mem_singleton.mp hx]
    exact ⟨ht, hr⟩

/-- A debit within the funds of its wallet. -/
theorem debit (h : d.Solvent) {r : WalletTransaction}
    (hd : d'.walletTransactions = d.walletTransactions ++ [r]) (ht : r.type = .debit)
    (hs : r.status = .successful) (hfunds : r.amount ≤ sumSuccessfulBalance d r.walletId) :
    d'.Solvent := by
  refine h.append hd (fun w => ?_) fun x hx hx' => ?_
  · have hbalance := h.balance w
    rw [List.map_singleton, List.sum_singleton, WalletTransaction.effect_debit ht hs]
    split
    · rename_i hw
      subst hw
      omega
    · omega
  · rw [List.mem_singleton.mp hx, hs] at hx'
    cases hx'

/-- A debit within the funds, together with a credit. -/
theorem transfer (h : d.Solvent) {debit credit : WalletTransaction}
    (hd : d'.walletTransactions = d.walletTransactions ++ [debit, credit])
    (ht : debit.type = .debit) (hs : debit.status = .successful) (ht' : credit.type = .credit)
    (hamount : 0 ≤ credit.amount)
    (hfunds : debit.amount ≤ sumSuccessfulBalance d debit.walletId) : d'.Solvent := by
  have hmid : ({ d with walletTransactions := d.walletTransactions ++ [debit] } : Db).Solvent :=
    h.debit rfl ht hs hfunds
  refine hmid.credit ?_ ht' hamount
  rw [hd]
  exact List.append_cons ..

/-- A credit that has waited. -/
theorem complete (h : d.Solvent) (hu : d.Unique) {r : WalletTransaction}
    (hr : r ∈ d.walletTransactions) (hs : r.status = .pending)
    (hd : d' = (Write.updateWalletTransactionStatus r.id .successful).apply d) : d'.Solvent := by
  obtain ⟨ht, hamount⟩ := h.pending r hr hs
  refine ⟨fun w => ?_, fun x hx hxs => ?_⟩
  · have hbefore := WalletTransaction.effect_of_status (by rw [hs]; nofun) w
    have hafter : 0 ≤ ({ r with status := .successful } : WalletTransaction).effect w :=
      WalletTransaction.effect_credit_nonneg { r with status := .successful } ht hamount w
    have hbalance := h.balance w
    rw [sumSuccessfulBalance_update hu hr hd, hbefore]
    omega
  · rw [hd] at hx
    obtain ⟨y, hy, rfl⟩ := List.mem_map.mp hx
    split at hxs
    · cases hxs
    · rename_i hne
      rw [if_neg hne]
      exact h.pending y hy hxs

end Db.Solvent

/-! ### The policy -/

def solvency : Policy where
  Inv s := s.db.Solvent
  Guar _ _ _ := True
  Allows _ _ _ _ _ := True
  quiet hq h := ⟨by rw [hq.db]; exact h, trivial⟩

variable {q : Call} {i : ℕ} {s : World}

/-- The commit of one row that leaves the database solvent. -/
theorem solvency_grant {t u : World} (h : u.db.Solvent) :
    solvency.Inv u ∧ solvency.Guar i t u := ⟨h, trivial⟩

theorem executeP2p_solvent (data : ExecuteP2pWithdrawalData) (hamount : 0 < data.amount) :
    (solvency.discipline P config).wp q i (executeP2p data) (fun _ _ => True) (fun _ _ => True)
      s := by
  refine wp_executeP2p (fun _ => True) (fun _ _ _ => trivial) .true (fun _ _ _ _ => trivial)
    ?_ (fun _ _ _ => trivial) fun _ _ _ _ _ _ _ _ => trivial
  intro t u a b c _ hc hfunds _ _
  have hdb := data.db_of_commits hc
  have hrows : u.db.walletTransactions = t.db.walletTransactions ++
      [(data.debit a.1).row b.1 b.2, (data.credit a.1).row c.1 c.2] := by rw [hdb]
  have hsolvent : t.db.Solvent := hc.inv.2.2
  exact solvency_grant (hsolvent.transfer hrows rfl rfl rfl hamount.le hfunds)

theorem executeBankAccept_solvent (data : ExecuteBankWithdrawalData) :
    (solvency.discipline P config).wp q i (executeBankAccept data) (fun _ _ => True)
      (fun _ _ => True) s := by
  refine wp_executeBankAccept (fun _ => True) (fun _ _ _ => trivial) .true
    (fun _ _ _ _ => trivial) ?_ (fun _ _ _ => trivial) fun _ _ _ _ _ _ _ => trivial
  intro t u a b _ hc hfunds _ _
  have hdb := data.db_of_commits hc
  have hrows : u.db.walletTransactions = t.db.walletTransactions ++
      [(data.debit a.1).row b.1 b.2] := by rw [hdb]
  have hsolvent : t.db.Solvent := hc.inv.2.2
  exact solvency_grant (hsolvent.debit hrows rfl rfl hfunds)

theorem postCreditPending_solvent (input : PostCreditPendingInput) :
    (solvency.discipline P config).wp q i (postCreditPending input) (fun _ _ => True)
      (fun _ _ => True) s := by
  refine wp_postCreditPending (.any fun _ _ => trivial) ?_ fun _ _ _ => trivial
  intro t u stamp _ hc hpos
  have hrows : u.db.walletTransactions = t.db.walletTransactions ++
      [input.data.row stamp.1 stamp.2] := by rw [hc.db]; rfl
  have hsolvent : t.db.Solvent := hc.inv.2.2
  exact solvency_grant (hsolvent.credit hrows rfl hpos.le)

theorem postReversalCredit_solvent (input : PostReversalInput) :
    (solvency.discipline P config).wp q i (postReversalCredit input) (fun _ _ => True)
      (fun _ _ => True) s := by
  refine wp_postReversalCredit (.any fun _ _ => trivial) ?_ fun _ _ _ => trivial
  intro t u stamp _ _ hc hpos _
  have hrows : u.db.walletTransactions = t.db.walletTransactions ++
      [input.data.row stamp.1 stamp.2] := by rw [hc.db]; rfl
  have hsolvent : t.db.Solvent := hc.inv.2.2
  exact solvency_grant (hsolvent.credit hrows rfl hpos.le)

theorem postDebitSuccessful_solvent (input : PostDebitInput) :
    (solvency.discipline P config).wp q i (postDebitSuccessful input) (fun _ _ => True)
      (fun _ _ => True) s := by
  refine wp_postDebitSuccessful (.any fun _ _ => trivial) ?_ fun _ _ _ => trivial
  intro t u stamp _ hc _ hfunds
  have hrows : u.db.walletTransactions = t.db.walletTransactions ++
      [input.data.row stamp.1 stamp.2] := by rw [hc.db]; rfl
  have hsolvent : t.db.Solvent := hc.inv.2.2
  exact solvency_grant (hsolvent.debit hrows rfl rfl hfunds)

theorem completeCreditSuccessful_solvent (input : CompleteCreditInput) :
    (solvency.discipline P config).wp q i (completeCreditSuccessful input) (fun _ _ => True)
      (fun _ _ => True) s := by
  refine wp_completeCreditSuccessful (fun _ _ => trivial) ?_ fun _ _ _ => trivial
  intro t u r _ hc hr _ _ hpending
  have hsolvent : t.db.Solvent := hc.inv.2.2
  exact solvency_grant (hsolvent.complete hc.inv.2.1 hr hpending (by rw [hc.db]; rfl))

theorem register_solvent (dto : RegisterDto) :
    (solvency.discipline P config).wp q i (AuthService.register P dto) (fun _ _ => True)
      (fun _ _ => True) s := by
  refine AuthService.wp_register ⟨fun hw _ => ?_, fun hw => ?_⟩ (fun _ _ => trivial)
    fun _ _ => trivial
  · have hsolvent := hw.inv.2.2
    exact solvency_grant (Db.Solvent.congr hsolvent (by rw [hw.db]; rfl))
  · have hsolvent := hw.inv.2.2
    exact solvency_grant (Db.Solvent.congr hsolvent (by rw [hw.db]; rfl))

/-! ### The result -/

namespace Ledger

/-- The operations on the journal, and the registrations that create the wallets. -/
def admits : Call → Bool
  | .register _ => true
  | call => call.isLedger

variable (P config) in
def operations : Machine.Assumptions (walletApi P config) := .calls fun call => admits call

instance : DecidablePred (operations P config).admits :=
  fun call => inferInstanceAs (Decidable (admits call = true))

instance : ∀ call i c ch s, Decidable ((operations P config).allows call i c ch s) :=
  fun _ _ _ _ _ => .isTrue trivial

theorem certified :
    Certified (walletApi P config) (operations P config) World.initial
      (solvency.discipline P config) (fun _ _ _ _ => True) (fun _ _ _ _ => True) := by
  have hinitial : solvency.Inv World.initial := Db.Solvent.empty
  refine Policy.certified hinitial (fun _ _ _ _ _ _ => trivial) ?_
  intro call i s hcall
  have mapped {α : Type} {f : α → Response} {p : Program α}
      (h : (solvency.discipline P config).wp call i p (fun _ _ => True) (fun _ _ => True) s) :
      (solvency.discipline P config).wp call i (f <$> p) (fun _ _ => True) (fun _ _ => True) s :=
    wp_map h
  cases call with
  | register dto => exact mapped (register_solvent dto)
  | executeP2p data => exact mapped (executeP2p_solvent data (of_decide_eq_true hcall))
  | executeBankAccept data => exact mapped (executeBankAccept_solvent data)
  | postCreditPending input => exact mapped (postCreditPending_solvent input)
  | completeCreditSuccessful input => exact mapped (completeCreditSuccessful_solvent input)
  | postDebitSuccessful input => exact mapped (postDebitSuccessful_solvent input)
  | postReversalCredit input => exact mapped (postReversalCredit_solvent input)
  | _ => cases hcall

/-- In every state that some interleaving of the operations reaches, whatever
fails and whoever stops, no balance is negative. -/
theorem no_overdraft {cfg : Machine.Config (walletApi P config)}
    (h : Machine.Reachable (operations P config) World.initial cfg)
    (walletId : String) : 0 ≤ sumSuccessfulBalance cfg.state.db walletId := by
  have hinv := certified.inv h
  have hsolvent : Db.Solvent cfg.state.db := hinv.2.2
  exact hsolvent.balance walletId

/-- Ada is credited with 1000 and sends 400 to Bob, while a debit of 700 waits
for her wallet. -/
def schedule : List (Machine.Action (walletApi platform mockConfig)) :=
  register 0 "ada" "u1" "w1" ++ register 1 "bob" "u2" "w2" ++
    [.spawn 2 (.postCreditPending { walletId := "w1", amount := 1000, idempotencyKey := "k" })] ++
    calm 2 4 ++ generate 2 ["r1"] ++ calm 2 2 ++
    [.spawn 3 (.completeCreditSuccessful { transactionId := "r1", expectedWalletId := "w1" })] ++
    calm 3 7 ++
    [.spawn 4 (.executeP2p
        { userId := "u1"
          senderWalletId := "w1"
          destinationWalletId := "w2"
          amount := 400
          currency := "NGN"
          idempotencyKey := "k1"
          requestBodyHash := "h1" }),
      .spawn 5 (.postDebitSuccessful
        { walletId := "w1", amount := 700, purpose := .bankPayout, idempotencyKey := "k2" })] ++
    calm 5 2 ++ calm 4 6 ++ generate 4 ["x1", "", "r2", "", "r3"] ++ calm 4 3 ++ calm 5 4

theorem no_overdraft_schedule :
    ∃ cfg, Machine.replayUnder (operations platform mockConfig) (.initial World.initial) schedule =
        some cfg ∧
      sumSuccessfulBalance cfg.state.db "w1" = 600 ∧ 0 ≤ sumSuccessfulBalance cfg.state.db "w1" := by
  have hrun : (Machine.replayUnder (operations platform mockConfig) (.initial World.initial)
      schedule).any fun cfg => sumSuccessfulBalance cfg.state.db "w1" = 600 := by decide +kernel
  obtain ⟨cfg, hcfg, hbalance⟩ := (Option.any_eq_true ..).mp hrun
  exact ⟨cfg, hcfg, of_decide_eq_true hbalance, no_overdraft (.replayUnder hcfg) "w1"⟩

end Ledger

end WalletApi
