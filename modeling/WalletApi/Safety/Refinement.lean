import WalletApi.Accounting.Accounts
import WalletApi.Safety.Reconciliation
import WalletApi.Safety.Reversals
import WalletApi.Safety.Spending

/-!
The API is a bank.

What the tables are for can be said without them: they are accounts, with deposits
and payouts that are under way. `Db.accounts` reads the accounts off the tables.
Each step that any run of the API takes leaves the accounts as they are or is one
operation of a bank, whose guards hold; and only a thread whose call is responsible
for an operation performs it.
-/

namespace WalletApi

open Accounting Concurrency Machine WalletTransactionRepository WithdrawalRepository Schedule

variable {P : Platform} {config : Config} {d d' : Db} {w : Withdrawal} {r : WalletTransaction}

/-! ### The accounts behind the tables -/

/-- A funding credit as a deposit. -/
def WalletTransaction.flow (r : WalletTransaction) : Flow String :=
  ⟨r.walletId, r.amount, r.status = .successful⟩

/-- A bank withdrawal as a payout. -/
def Withdrawal.flow (d : Db) (w : Withdrawal) : Flow String :=
  ⟨w.walletId, w.amount, d.Reversed w⟩

def WalletTransaction.isDeposit (id : String) (r : WalletTransaction) : Bool :=
  r.purpose = .flutterwaveFunding ∧ r.id = id

def Withdrawal.isPayout (id : String) (w : Withdrawal) : Bool :=
  w.destinationType = .bank ∧ w.id = id

namespace Db

def deposit? (d : Db) (id : String) : Option (Flow String) :=
  (d.walletTransactions.find? (·.isDeposit id)).map (·.flow)

def payout? (d : Db) (id : String) : Option (Flow String) :=
  (d.withdrawals.find? (·.isPayout id)).map (·.flow d)

/-- The accounts of the wallets, which are never overdrawn. -/
def accounts (d : Db) (h : d.Solvent) : Accounts String String String where
  balance := sumSuccessfulBalance d
  deposits := d.deposit?
  payouts := d.payout?
  balance_nonneg := h.balance

end Db

/-! ### New rows -/

theorem deposit?_append {rows : List WalletTransaction}
    (h : d'.walletTransactions = d.walletTransactions ++ rows) (id : String) :
    d'.deposit? id = (d.deposit? id).or ((rows.find? (·.isDeposit id)).map (·.flow)) := by
  rw [Db.deposit?, h, List.find?_append, Option.map_or]
  rfl

/-- Rows that are no funding credits announce nothing. -/
theorem deposit?_append_other {rows : List WalletTransaction}
    (h : d'.walletTransactions = d.walletTransactions ++ rows)
    (hrows : ∀ r ∈ rows, r.purpose ≠ .flutterwaveFunding) (id : String) :
    d'.deposit? id = d.deposit? id := by
  have hnone : rows.find? (·.isDeposit id) = none :=
    List.find?_eq_none.mpr fun r hr hp => hrows r hr (of_decide_eq_true hp).1
  rw [deposit?_append h, hnone]
  exact Option.or_none

/-- Rows that are no reversals give nothing back. -/
theorem reversed_append {rows : List WalletTransaction}
    (h : d'.walletTransactions = d.walletTransactions ++ rows)
    (hrows : ∀ r ∈ rows, r.purpose ≠ .reversal) (w : Withdrawal) :
    d'.Reversed w ↔ d.Reversed w := by
  unfold Db.Reversed
  rw [h]
  constructor
  · rintro ⟨r, hr, hpurpose, hid⟩
    rcases List.mem_append.mp hr with hold | hnew
    · exact ⟨r, hold, hpurpose, hid⟩
    · exact absurd hpurpose (hrows r hnew)
  · rintro ⟨r, hr, hrest⟩
    exact ⟨r, List.mem_append_left _ hr, hrest⟩

theorem Withdrawal.flow_congr (h : d'.Reversed w ↔ d.Reversed w) : w.flow d' = w.flow d := by
  simp only [Withdrawal.flow, h]

/-- The payouts as long as no withdrawal is created or changed. -/
theorem payout?_congr (hw : d'.withdrawals = d.withdrawals)
    (hr : ∀ w ∈ d.withdrawals, d'.Reversed w ↔ d.Reversed w) (id : String) :
    d'.payout? id = d.payout? id := by
  rw [Db.payout?, Db.payout?, hw]
  cases hfind : d.withdrawals.find? (·.isPayout id) with
  | none => rfl
  | some w =>
      have hw : w ∈ d.withdrawals := List.mem_of_find?_eq_some hfind
      exact congrArg some (Withdrawal.flow_congr (hr w hw))

/-- The payouts after one more withdrawal. -/
theorem payout?_append (hw : d'.withdrawals = d.withdrawals ++ [w])
    (hr : ∀ x ∈ d.withdrawals, d'.Reversed x ↔ d.Reversed x) (id : String) :
    d'.payout? id =
      (d.payout? id).or (if w.isPayout id then some (w.flow d') else none) := by
  have hold : (d.withdrawals.find? (·.isPayout id)).map (·.flow d') = d.payout? id := by
    cases hfind : d.withdrawals.find? (·.isPayout id) with
    | none => rw [Db.payout?, hfind]; rfl
    | some x =>
        rw [Db.payout?, hfind]
        exact congrArg some (Withdrawal.flow_congr (hr x (List.mem_of_find?_eq_some hfind)))
  rw [Db.payout?, hw, List.find?_append, Option.map_or, hold]
  congr 1
  by_cases hp : w.isPayout id = true
  · rw [List.find?_cons_of_pos hp, if_pos hp]
    rfl
  · rw [List.find?_cons_of_neg hp, if_neg hp]
    rfl

/-! ### Looking one up -/

theorem deposit?_of_mem (hu : d.Unique) (hr : r ∈ d.walletTransactions)
    (hpurpose : r.purpose = .flutterwaveFunding) : d.deposit? r.id = some r.flow := by
  have hp : r.isDeposit r.id = true := decide_eq_true ⟨hpurpose, rfl⟩
  cases hfind : d.walletTransactions.find? (·.isDeposit r.id) with
  | none => exact absurd hp (List.find?_eq_none.mp hfind r hr)
  | some x =>
      have hx : x.isDeposit r.id = true := List.find?_some hfind
      have hid : x.id = r.id := (of_decide_eq_true hx).2
      rw [Db.deposit?, hfind, hu.row_ext (List.mem_of_find?_eq_some hfind) hr hid]
      rfl

theorem payout?_of_mem (hu : d.Unique) (hw : w ∈ d.withdrawals) (hbank : w.destinationType = .bank) :
    d.payout? w.id = some (w.flow d) := by
  have hp : w.isPayout w.id = true := decide_eq_true ⟨hbank, rfl⟩
  cases hfind : d.withdrawals.find? (·.isPayout w.id) with
  | none => exact absurd hp (List.find?_eq_none.mp hfind w hw)
  | some x =>
      have hx : x.isPayout w.id = true := List.find?_some hfind
      have hid : x.id = w.id := (of_decide_eq_true hx).2
      rw [Db.payout?, hfind, hu.withdrawal_ext (List.mem_of_find?_eq_some hfind) hw hid]
      rfl

theorem deposit?_eq_none {id : String} (h : ∀ r ∈ d.walletTransactions, r.id ≠ id) :
    d.deposit? id = none := by
  have hnone : d.walletTransactions.find? (·.isDeposit id) = none :=
    List.find?_eq_none.mpr fun r hr hp => h r hr (of_decide_eq_true hp).2
  rw [Db.deposit?, hnone]
  rfl

theorem payout?_eq_none {id : String} (h : ∀ w ∈ d.withdrawals, w.id ≠ id) :
    d.payout? id = none := by
  have hnone : d.withdrawals.find? (·.isPayout id) = none :=
    List.find?_eq_none.mpr fun w hw hp => h w hw (of_decide_eq_true hp).2
  rw [Db.payout?, hnone]
  rfl

/-- The rows that were there have other ids than a new one. -/
theorem rowId_fresh (hu : d'.Unique) {rows : List WalletTransaction}
    (h : d'.walletTransactions = d.walletTransactions ++ rows) (hr : r ∈ rows) :
    ∀ x ∈ d.walletTransactions, x.id ≠ r.id := by
  intro x hx hid
  have hids := hu.rowIds_nodup
  rw [h, List.map_append, List.nodup_append'] at hids
  exact hids.2.2 (List.mem_map_of_mem hx) (hid ▸ List.mem_map_of_mem hr)

theorem withdrawalId_fresh (hu : d'.Unique) (h : d'.withdrawals = d.withdrawals ++ [w]) :
    ∀ x ∈ d.withdrawals, x.id ≠ w.id := by
  intro x hx hid
  have hids := hu.withdrawalIds_nodup
  rw [h, List.map_append, List.nodup_append'] at hids
  exact hids.2.2 (List.mem_map_of_mem hx) (hid ▸ .head _)

/-! ### One operation for each effect -/

variable (hs : d.Solvent) (hs' : d'.Solvent)

/-- A pending credit announces a deposit. -/
theorem step_of_pendingCredit (hu' : d'.Unique) (hpurpose : r.purpose = .flutterwaveFunding)
    (hpending : r.status = .pending) (hamount : 0 < r.amount)
    (hrows : d'.walletTransactions = d.walletTransactions ++ [r])
    (hw : d'.withdrawals = d.withdrawals) :
    Step (d.accounts hs) (.expect r.id r.walletId r.amount) (d'.accounts hs') where
  allowed := ⟨hamount, deposit?_eq_none (rowId_fresh hu' hrows (.head _))⟩
  balance id := by
    have heffect : r.effect id = 0 := WalletTransaction.effect_of_status (by rw [hpending]; nofun) id
    show sumSuccessfulBalance d' id = _
    rw [sumSuccessfulBalance_append hrows, List.map_singleton, List.sum_singleton, heffect]
    rfl
  deposits id := by
    show d'.deposit? id = (if r.id = id then some _ else none).or (d.deposit? id)
    rw [deposit?_append hrows]
    by_cases hid : r.id = id
    · have hp : r.isDeposit id = true := decide_eq_true ⟨hpurpose, hid⟩
      have hnone : d.deposit? id = none :=
        hid ▸ deposit?_eq_none (rowId_fresh hu' hrows (.head _))
      have hflow : r.flow = ⟨r.walletId, r.amount, false⟩ := by
        simp [WalletTransaction.flow, hpending]
      rw [hnone, List.find?_cons_of_pos hp, if_pos hid, ← hflow]
      rfl
    · have hp : ¬r.isDeposit id = true := fun hp => hid (of_decide_eq_true hp).2
      rw [List.find?_cons_of_neg hp, if_neg hid, Option.none_or]
      exact Option.or_none
  payouts id := by
    refine payout?_congr hw (fun w _ => reversed_append hrows (fun x hx => ?_) w) id
    rw [List.mem_singleton.mp hx, hpurpose]
    nofun

/-- Its completion is the arrival. -/
theorem step_of_completeCredit (hu : d.Unique) (hu' : d'.Unique) (hr : r ∈ d.walletTransactions)
    (hpurpose : r.purpose = .flutterwaveFunding) (hpending : r.status = .pending)
    (hd : d' = (Write.updateWalletTransactionStatus r.id .successful).apply d) :
    Step (d.accounts hs) (.arrive r.id r.walletId r.amount) (d'.accounts hs') where
  allowed := by
    have hflow : r.flow = ⟨r.walletId, r.amount, false⟩ := by
      simp [WalletTransaction.flow, hpending]
    show d.deposit? r.id = _
    rw [deposit?_of_mem hu hr hpurpose, hflow]
  balance id := by
    have hcredit := (hs.pending r hr hpending).1
    have hbefore : r.effect id = 0 :=
      WalletTransaction.effect_of_status (by rw [hpending]; nofun) id
    have hafter : ({ r with status := .successful } : WalletTransaction).effect id =
        if r.walletId = id then r.amount else 0 :=
      WalletTransaction.effect_credit (r := { r with status := .successful }) hcredit rfl id
    show sumSuccessfulBalance d' id = _
    rw [sumSuccessfulBalance_update hu hr hd, hbefore, hafter, sub_zero]
    rfl
  deposits id := by
    show d'.deposit? id = (if r.id = id then some _ else none).or (d.deposit? id)
    by_cases hid : r.id = id
    · have hmem : ({ r with status := .successful } : WalletTransaction) ∈ d'.walletTransactions := by
        rw [hd]
        exact List.mem_map.mpr ⟨r, hr, if_pos rfl⟩
      rw [if_pos hid, ← hid]
      exact deposit?_of_mem hu' hmem hpurpose
    · have hsame (x : WalletTransaction) :
          (if x.id = r.id then { x with status := .successful } else x).isDeposit id =
            x.isDeposit id := by
        split <;> rfl
      rw [if_neg hid, Option.none_or, Db.deposit?, hd]
      show ((List.map _ d.walletTransactions).find? _).map _ = _
      rw [List.find?_map, Option.map_map, Db.deposit?]
      have hpred : ((·.isDeposit id) ∘ fun x : WalletTransaction =>
          if x.id = r.id then { x with status := .successful } else x) = (·.isDeposit id) :=
        funext hsame
      rw [hpred]
      cases hfind : d.walletTransactions.find? (·.isDeposit id) with
      | none => rfl
      | some x =>
          have hx : x.isDeposit id = true := List.find?_some hfind
          have hne : x.id ≠ r.id := fun h => hid (h.symm.trans (of_decide_eq_true hx).2)
          simp [hne]
  payouts id := by
    refine payout?_congr (by rw [hd]; rfl) (fun w _ => ?_) id
    unfold Db.Reversed
    rw [hd]
    constructor
    · rintro ⟨x, hx, hrest⟩
      obtain ⟨y, hy, rfl⟩ := List.mem_map.mp hx
      refine ⟨y, hy, ?_⟩
      split at hrest <;> exact hrest
    · rintro ⟨x, hx, hrest⟩
      refine ⟨_, List.mem_map.mpr ⟨x, hx, rfl⟩, ?_⟩
      split <;> exact hrest

/-- A transfer between wallets moves money. -/
theorem step_of_p2p (data : ExecuteP2pWithdrawalData) (a b c : String × ℕ)
    (hamount : 0 < data.amount)
    (hfunds : data.amount ≤ sumSuccessfulBalance d data.senderWalletId)
    (hw : d'.withdrawals = d.withdrawals ++ [data.final a b c])
    (hrows : d'.walletTransactions =
      d.walletTransactions ++ [(data.debit a.1).row b.1 b.2, (data.credit a.1).row c.1 c.2]) :
    Step (d.accounts hs) (.move data.senderWalletId data.destinationWalletId data.amount)
      (d'.accounts hs') where
  allowed := ⟨hamount, hfunds⟩
  balance id := by
    show sumSuccessfulBalance d' id = _
    rw [sumSuccessfulBalance_append hrows, List.map_cons, List.map_singleton, List.sum_cons,
      List.sum_singleton, WalletTransaction.effect_debit rfl rfl,
      WalletTransaction.effect_credit rfl rfl]
    rfl
  deposits id := by
    refine deposit?_append_other hrows (fun x hx => ?_) id
    rcases List.mem_cons.mp hx with rfl | hx
    · nofun
    · rw [List.mem_singleton.mp hx]
      nofun
  payouts id := by
    have hkeep (x : Withdrawal) : d'.Reversed x ↔ d.Reversed x := by
      refine reversed_append hrows (fun x hx => ?_) x
      rcases List.mem_cons.mp hx with rfl | hx
      · nofun
      · rw [List.mem_singleton.mp hx]
        nofun
    have hnot : ¬(data.final a b c).isPayout id = true := fun hp => by cases (of_decide_eq_true hp).1
    show d'.payout? id = d.payout? id
    rw [payout?_append hw fun x _ => hkeep x, if_neg hnot, Option.or_none]

/-- The acceptance of a bank withdrawal pays out. -/
theorem step_of_bankAccept (hu' : d'.Unique) (hb : d.Books) (data : ExecuteBankWithdrawalData)
    (a b : String × ℕ) (hamount : 0 < data.amount)
    (hfunds : data.amount ≤ sumSuccessfulBalance d data.walletId)
    (hw : d'.withdrawals = d.withdrawals ++ [data.final a b])
    (hrows : d'.walletTransactions = d.walletTransactions ++ [(data.debit a.1).row b.1 b.2]) :
    Step (d.accounts hs) (.payOut a.1 data.walletId data.amount) (d'.accounts hs') where
  allowed := ⟨hamount, hfunds, payout?_eq_none (withdrawalId_fresh hu' hw)⟩
  balance id := by
    show sumSuccessfulBalance d' id = _
    rw [sumSuccessfulBalance_append hrows, List.map_singleton, List.sum_singleton,
      WalletTransaction.effect_debit rfl rfl]
    rfl
  deposits id := by
    refine deposit?_append_other hrows (fun x hx => ?_) id
    rw [List.mem_singleton.mp hx]
    nofun
  payouts id := by
    have hkeep (x : Withdrawal) : d'.Reversed x ↔ d.Reversed x := by
      refine reversed_append hrows (fun x hx => ?_) x
      rw [List.mem_singleton.mp hx]
      nofun
    have hfresh := withdrawalId_fresh hu' hw
    -- Nothing that was there before can be about the new withdrawal.
    have hnew : ¬d'.Reversed (data.final a b) := by
      rw [hkeep]
      rintro ⟨x, hx, hpurpose, hid⟩
      obtain ⟨y, hy, -, hmade⟩ := origin_of_reversal hb hx (.inl hpurpose)
      rw [hmade] at hid
      exact hfresh y hy (Option.some.inj hid)
    have hflow : (data.final a b).flow d' = ⟨data.walletId, data.amount, false⟩ := by
      rw [Withdrawal.flow, decide_eq_false hnew]
      rfl
    show d'.payout? id = (if a.1 = id then some _ else none).or (d.payout? id)
    rw [payout?_append hw fun x _ => hkeep x, hflow]
    by_cases hid : a.1 = id
    · have hp : (data.final a b).isPayout id = true := decide_eq_true ⟨rfl, hid⟩
      have hnone : d.payout? id = none := hid ▸ payout?_eq_none hfresh
      rw [if_pos hp, if_pos hid, hnone]
      rfl
    · have hp : ¬(data.final a b).isPayout id = true := fun hp => hid (of_decide_eq_true hp).2
      rw [if_neg hp, if_neg hid, Option.or_none]
      rfl

/-- A reversal pays back. -/
theorem step_of_reversal (hu : d.Unique) (hu' : d'.Unique) (hb : d.Books) (hmem : w ∈ d.withdrawals)
    (hbank : w.destinationType = .bank) (stamp : String × ℕ)
    (hw : d'.withdrawals = d.withdrawals)
    (hrows : d'.walletTransactions =
      d.walletTransactions ++ [w.reversalData.row stamp.1 stamp.2]) :
    Step (d.accounts hs) (.payBack w.id w.walletId w.amount) (d'.accounts hs') where
  allowed := by
    -- An earlier reversal would have the same key.
    have hout : ¬d.Reversed w := by
      rintro ⟨x, hx, hpurpose, hid⟩
      obtain ⟨y, hy, -, hmade⟩ := origin_of_reversal hb hx (.inl hpurpose)
      have hyid : x.withdrawalId = some y.id := by rw [hmade]; rfl
      have hyw : y = w := hu.withdrawal_ext hy hmem (Option.some.inj (hyid.symm.trans hid))
      have hkey : x.idempotencyKey = (w.reversalData.row stamp.1 stamp.2).idempotencyKey := by
        rw [hmade, hyw]
        rfl
      have hx' : x ∈ d'.walletTransactions := hrows ▸ List.mem_append_left _ hx
      have hnew : w.reversalData.row stamp.1 stamp.2 ∈ d'.walletTransactions :=
        hrows ▸ List.mem_append_right _ (.head _)
      exact rowId_fresh hu' hrows (.head _) x hx
        (congrArg (·.id) (hu'.row_of_idempotencyKey hx' hnew hkey))
    show d.payout? w.id = _
    rw [payout?_of_mem hu hmem hbank, Withdrawal.flow, decide_eq_false hout]
  balance id := by
    show sumSuccessfulBalance d' id = _
    rw [sumSuccessfulBalance_append hrows, List.map_singleton, List.sum_singleton,
      WalletTransaction.effect_credit rfl rfl]
    rfl
  deposits id := by
    refine deposit?_append_other hrows (fun x hx => ?_) id
    rw [List.mem_singleton.mp hx]
    nofun
  payouts id := by
    have hback : d'.Reversed w :=
      ⟨_, hrows ▸ List.mem_append_right _ (.head _), rfl, rfl⟩
    have hother {x : Withdrawal} (hx : x.id ≠ w.id) : d'.Reversed x ↔ d.Reversed x := by
      unfold Db.Reversed
      rw [hrows]
      constructor
      · rintro ⟨r, hr, hpurpose, hid⟩
        rcases List.mem_append.mp hr with hold | hnew
        · exact ⟨r, hold, hpurpose, hid⟩
        · rw [List.mem_singleton.mp hnew] at hid
          exact absurd (Option.some.inj hid).symm hx
      · rintro ⟨r, hr, hrest⟩
        exact ⟨r, List.mem_append_left _ hr, hrest⟩
    show d'.payout? id = (if w.id = id then some _ else none).or (d.payout? id)
    by_cases hid : w.id = id
    · have hmem' : w ∈ d'.withdrawals := hw ▸ hmem
      rw [if_pos hid, ← hid, payout?_of_mem hu' hmem' hbank, Withdrawal.flow, decide_eq_true hback]
      rfl
    · rw [if_neg hid, Option.none_or, Db.payout?, Db.payout?, hw]
      cases hfind : d.withdrawals.find? (·.isPayout id) with
      | none => rfl
      | some x =>
          have hx : x.isPayout id = true := List.find?_some hfind
          have hne : x.id ≠ w.id := fun h => hid (h.symm.trans (of_decide_eq_true hx).2)
          exact congrArg some (Withdrawal.flow_congr (hother hne))

/-! ### Every effect -/

theorem accounts_congr (hrows : d'.walletTransactions = d.walletTransactions)
    (hpayout : ∀ id, d'.payout? id = d.payout? id) : d'.accounts hs' = d.accounts hs := by
  ext id
  · have hjournal : d'.journalOf id = d.journalOf id := congrArg _ hrows
    exact sumSuccessfulBalance_congr hjournal
  · show _ ∈ d'.deposit? id ↔ _ ∈ d.deposit? id
    rw [Db.deposit?, hrows, ← Db.deposit?]
  · show _ ∈ d'.payout? id ↔ _ ∈ d.payout? id
    rw [hpayout]

theorem reversed_congr (hrows : d'.walletTransactions = d.walletTransactions) (w : Withdrawal) :
    d'.Reversed w ↔ d.Reversed w := by
  unfold Db.Reversed
  rw [hrows]

/-- The columns that a payout is read off are never updated. -/
theorem payout?_update {data : UpdateWithdrawalProviderData} {id' : String}
    (hd : d' = (Write.updateWithdrawal id' data).apply d) (id : String) :
    d'.payout? id = d.payout? id := by
  have hflow (x : Withdrawal) :
      (if x.id = id' then x.patch data else x).flow d' = x.flow d := by
    have hrows : d'.walletTransactions = d.walletTransactions := by rw [hd]; rfl
    have hreversed := reversed_congr hrows x
    split
    · exact Withdrawal.flow_congr hreversed
    · exact Withdrawal.flow_congr hreversed
  have hpred : ((·.isPayout id) ∘ fun x : Withdrawal => if x.id = id' then x.patch data else x) =
      (·.isPayout id) := by
    funext x
    show (if x.id = id' then x.patch data else x).isPayout id = x.isPayout id
    split <;> rfl
  have hw : d'.withdrawals =
      d.withdrawals.map fun x => if x.id = id' then x.patch data else x := by
    rw [hd]
    rfl
  rw [Db.payout?, hw, List.find?_map, Option.map_map, hpred, Db.payout?]
  exact congrArg (Option.map · _) (funext hflow)

/-- What the tables show of an operation. -/
def Db.Shows (d d' : Db) : Operation String String String → Prop
  | .expect .. => ∃ r ∈ d'.walletTransactions, r.status = .pending ∧
      ∀ x ∈ d.walletTransactions, x.id ≠ r.id
  | .arrive .. => ∃ r ∈ d.walletTransactions, r ∉ d'.walletTransactions
  | .move _ _ n | .payOut _ _ n => ∃ w ∈ d'.withdrawals, w.amount = n ∧
      ∀ x ∈ d.withdrawals, x.id ≠ w.id
  | .payBack .. => ∃ r ∈ d'.walletTransactions, r.status = .successful ∧ r.purpose = .reversal ∧
      ∀ x ∈ d.walletTransactions, x.id ≠ r.id

/-- What a commit does to the tables is nothing to the accounts, or one operation. -/
theorem Db.Effect.operation (h : d.Effect d') (hu : d.Unique) (hu' : d'.Unique) (hb : d.Books) :
    d'.accounts hs' = d.accounts hs ∨
      ∃ o, Step (d.accounts hs) o (d'.accounts hs') ∧ d.Shows d' o := by
  cases h with
  | aside _ _ hr hw =>
      exact .inl (accounts_congr hs hs' hr (payout?_congr hw fun w _ => reversed_congr hr w))
  | createTransfer t _ =>
      exact .inl (accounts_congr hs hs' rfl (payout?_congr rfl fun w _ => reversed_congr rfl w))
  | updateTransfer id data =>
      exact .inl (accounts_congr hs hs' rfl (payout?_congr rfl fun w _ => reversed_congr rfl w))
  | updateWithdrawal id data _ _ => exact .inl (accounts_congr hs hs' rfl (payout?_update rfl))
  | pendingCredit t ht stamp =>
      exact .inr ⟨_, step_of_pendingCredit hs hs' hu' rfl rfl (hb.transfer t ht).amount rfl rfl,
        _, List.mem_append_right _ (.head _), rfl, rowId_fresh hu' rfl (.head _)⟩
  | completeCredit r hr hpending =>
      have hpurpose := (hb.origin r hr).purpose_of_pending hpending
      refine .inr ⟨_, step_of_completeCredit hs hs' hu hu' hr hpurpose hpending rfl, r, hr, ?_⟩
      intro hmem
      obtain ⟨x, -, hx⟩ := List.mem_map.mp hmem
      have hdone : r.status = .successful := by
        rw [← hx]
        split
        · rfl
        · rename_i hne
          rw [if_neg hne] at hx
          exact absurd (congrArg (·.id) hx) hne
      cases hpending.symm.trans hdone
  | p2p data a b c hamount _ _ _ hfunds =>
      exact .inr ⟨_, step_of_p2p hs hs' data a b c hamount hfunds rfl rfl, _,
        List.mem_append_right _ (.head _), rfl, withdrawalId_fresh hu' rfl⟩
  | bankAccept data a b hamount _ _ hfunds =>
      exact .inr ⟨_, step_of_bankAccept hs hs' hu' hb data a b hamount hfunds rfl rfl, _,
        List.mem_append_right _ (.head _), rfl, withdrawalId_fresh hu' rfl⟩
  | reversal w hw hbank stamp =>
      exact .inr ⟨_, step_of_reversal hs hs' hu hu' hb hw hbank stamp rfl rfl, _,
        List.mem_append_right _ (.head _), rfl, rfl, rowId_fresh hu' rfl (.head _)⟩

/-! ### Whose operation it is -/

/-- The operations that the calls perform. -/
def Call.performs : Call → Operation String String String → Prop
  | postTransfers .., .expect .. => True
  | transferCompleteWorker, .arrive .. => True
  | postWithdrawals _ _ dto, .move _ _ n => n = dto.amount
  | postWithdrawals _ _ dto, .payOut _ _ n => n = dto.amount
  | withdrawalPayoutWorker, .payBack .. => True
  | withdrawalSettleWorker, .payBack .. => True
  | _, _ => False

/-- A row of the journal is an old one, or the buffer creates or updates it. -/
theorem row_source_of_applyAll {ws : List Write} {x : WalletTransaction}
    (hx : x ∈ Db.walletTransactions (schema.applyAll ws d)) :
    x ∈ d.walletTransactions ∨ Write.createWalletTransaction x ∈ ws ∨
      ∃ id status, Write.updateWalletTransactionStatus id status ∈ ws := by
  induction ws generalizing d with
  | nil => exact .inl hx
  | cons w ws ih =>
      rcases ih hx with hold | hnew | ⟨id, status, hw⟩
      · cases w with
        | createWalletTransaction row =>
            rcases List.mem_append.mp hold with hold | hnew
            · exact .inl hold
            · exact .inr (.inl (List.mem_singleton.mp hnew ▸ .head _))
        | updateWalletTransactionStatus id status => exact .inr (.inr ⟨id, status, .head _⟩)
        | _ => exact .inl hold
      · exact .inr (.inl (.tail _ hnew))
      · exact .inr (.inr ⟨id, status, .tail _ hw⟩)

theorem rowId_of_applyAll {ws : List Write} {x : WalletTransaction}
    (hx : x ∈ Db.walletTransactions (schema.applyAll ws d)) :
    (∃ y ∈ d.walletTransactions, y.id = x.id) ∨
      ∃ row, Write.createWalletTransaction row ∈ ws ∧ row.id = x.id := by
  induction ws generalizing d with
  | nil => exact .inl ⟨x, hx, rfl⟩
  | cons w ws ih =>
      rcases ih hx with ⟨y, hy, hid⟩ | ⟨row, hrow, hid⟩
      · cases w with
        | createWalletTransaction row =>
            rcases List.mem_append.mp hy with hold | hnew
            · exact .inl ⟨y, hold, hid⟩
            · exact .inr ⟨y, List.mem_singleton.mp hnew ▸ .head _, hid⟩
        | updateWalletTransactionStatus id status =>
            obtain ⟨z, hz, rfl⟩ := List.mem_map.mp hy
            refine .inl ⟨z, hz, ?_⟩
            rw [← hid]
            split <;> rfl
        | _ => exact .inl ⟨y, hy, hid⟩
      · exact .inr ⟨row, .tail _ hrow, hid⟩

section Writes

variable {call : Call} {client : Client} {ws : List Write} {x : WalletTransaction}

/-- No call both inserts rows and updates them. -/
theorem mem_of_fresh (hws : ∀ w ∈ ws, call.writes client w)
    (hx : x ∈ Db.walletTransactions (schema.applyAll ws d))
    (hfresh : ∀ y ∈ d.walletTransactions, y.id ≠ x.id) :
    Write.createWalletTransaction x ∈ ws := by
  rcases row_source_of_applyAll hx with hold | hnew | ⟨id, status, hupdate⟩
  · exact absurd rfl (hfresh x hold)
  · exact hnew
  · have hw := hws _ hupdate
    rcases rowId_of_applyAll hx with ⟨y, hy, hid⟩ | ⟨row, hrow, -⟩
    · exact absurd hid (hfresh y hy)
    · have hrow := hws _ hrow
      cases client <;> cases call <;> first | exact hw.elim | exact hrow.elim

theorem created_of_fresh (hws : ∀ w ∈ ws, call.writes client w)
    (hx : x ∈ Db.walletTransactions (schema.applyAll ws d))
    (hfresh : ∀ y ∈ d.walletTransactions, y.id ≠ x.id) :
    call.writes client (.createWalletTransaction x) :=
  hws _ (mem_of_fresh hws hx hfresh)

theorem request_of_fresh (hws : ∀ w ∈ ws, call.writes client w) {y : Withdrawal}
    (hy : y ∈ Db.withdrawals (schema.applyAll ws d)) (hfresh : ∀ z ∈ d.withdrawals, z.id ≠ y.id) :
    ∃ actor header dto, call = .postWithdrawals actor header dto ∧ y.amount = dto.amount := by
  rcases withdrawal_of_applyAll hy with ⟨z, hz, hcore⟩ | ⟨row, hrow, hcore⟩
  · exact absurd (congrArg (·.id) hcore).symm (hfresh z hz)
  · have hamount : y.core.amount = row.core.amount := by rw [hcore]
    have hw := hws _ hrow
    cases client with
    | pool => cases call <;> exact hw.elim
    | tx =>
        cases call with
        | postWithdrawals actor header dto =>
            exact ⟨actor, header, dto, rfl, hamount.trans hw.2.1⟩
        | _ => exact hw.elim

/-- What a buffer shows of an operation is the doing of its call. -/
theorem performs_of_shows (hws : ∀ w ∈ ws, call.writes client w)
    {o : Operation String String String} (h : d.Shows (schema.applyAll ws d) o) :
    call.performs o := by
  cases o with
  | expect id a n =>
      obtain ⟨x, hx, hs, hfresh⟩ := h
      have hw := created_of_fresh hws hx hfresh
      cases client with
      | pool => cases call <;> exact hw.elim
      | tx =>
          cases call with
          | postTransfers actor header dto => trivial
          | postWithdrawals actor header dto => cases hs.symm.trans hw.1
          | withdrawalPayoutWorker => cases hs.symm.trans hw
          | withdrawalSettleWorker => cases hs.symm.trans hw
          | _ => exact hw.elim
  | arrive id a n =>
      obtain ⟨x, hx, hgone⟩ := h
      obtain ⟨status, hupdate⟩ := (row_applyAll hx).resolve_left hgone
      have hw := hws _ hupdate
      cases client with
      | pool => cases call <;> exact hw.elim
      | tx =>
          cases call with
          | transferCompleteWorker => trivial
          | _ => exact hw.elim
  | move a b n =>
      obtain ⟨y, hy, hamount, hfresh⟩ := h
      obtain ⟨actor, header, dto, rfl, hdto⟩ := request_of_fresh hws hy hfresh
      exact hamount.symm.trans hdto
  | payOut id a n =>
      obtain ⟨y, hy, hamount, hfresh⟩ := h
      obtain ⟨actor, header, dto, rfl, hdto⟩ := request_of_fresh hws hy hfresh
      exact hamount.symm.trans hdto
  | payBack id a n =>
      obtain ⟨x, hx, hs, hpurpose, hfresh⟩ := h
      have hw := created_of_fresh hws hx hfresh
      cases client with
      | pool => cases call <;> exact hw.elim
      | tx =>
          cases call with
          | postTransfers actor header dto => cases hs.symm.trans hw
          | postWithdrawals actor header dto => exact absurd hpurpose hw.2
          | withdrawalPayoutWorker => trivial
          | withdrawalSettleWorker => trivial
          | _ => exact hw.elim

end Writes

/-! ### Runs -/

variable {cfg cfg' : Machine.Config (walletApi P config)}

/-- A step changes the tables by what its call writes. -/
theorem wrote_of_step (h : Reachable (requests P config) World.initial cfg) {i : ℕ} {call : Call}
    {c : Cmd} {k : Except Err c.Resp → Program Response} {ch : Choice} {r : Except Err c.Resp}
    {t : World} (hth : cfg.threads i = some (.running call (.op c k)))
    (he : World.exec P config i c ch cfg.state = some (r, t)) :
    ∃ client ws, (∀ w ∈ ws, call.writes client w) ∧
      t.db = schema.applyAll ws (World.db cfg.state) := by
  rcases World.exec_db he with heq | ⟨w, rfl, heq, -⟩ | ⟨rfl, ws, hopen, heq⟩
  · exact ⟨.pool, [], fun w hw => absurd hw List.not_mem_nil, heq⟩
  · refine ⟨.pool, [w], fun w' hw' => ?_, heq⟩
    rw [List.mem_singleton.mp hw']
    exact footprint_of_thread (fun _ h => h) h hth
  · refine ⟨.tx, ws, fun w hw => ?_, heq⟩
    obtain ⟨th, hth', hissues⟩ := (issues_of_reachable (fun _ h => h) h).2 i ws hopen w hw
    cases hth.symm.trans hth'
    exact hissues

theorem solvent_of_reachable (h : Reachable (requests P config) World.initial cfg) :
    (World.db cfg.state).Solvent :=
  (books_of_reachable h).2.1.solvent

/-- The world stands for the accounts behind its tables. -/
def World.StandsFor (s : World) (b : Accounts String String String) : Prop :=
  ∃ h : s.db.Solvent, b = s.db.accounts h

theorem World.StandsFor.congr {s t : World} {b : Accounts String String String} (h : t.db = s.db)
    (hs : s.StandsFor b) : t.StandsFor b := by
  unfold World.StandsFor at hs ⊢
  rw [h]
  exact hs

/-- A call performs one of its operations. -/
def Performs (b : Accounts String String String) (l : Call × Operation String String String)
    (b' : Accounts String String String) : Prop :=
  Step b l.2 b' ∧ l.1.performs l.2

theorem operations_of_traced {b b' : Accounts String String String}
    {ls : List (Call × Operation String String String)} (h : Traced Performs b ls b') :
    Traced Step b (ls.map (·.2)) b' :=
  h.map _ And.left

/-- The action is a step of the call. -/
def StepOf (cfg : Machine.Config (walletApi P config)) (a : Action (walletApi P config))
    (l : Call × Operation String String String) : Prop :=
  ∃ i ch p, a = .step i ch ∧ cfg.threads i = some (.running l.1 p)

/-- Each action is nothing to the accounts, or one operation of its call that the
guards of the bank allow. -/
theorem simulates_accounts :
    Simulates (requests P config) World.initial Performs World.StandsFor StepOf := by
  intro cfg cfg' a b hr hp hn hb
  have hr' := Reachable.next a hr hp hn
  obtain ⟨hu, hbooks, -⟩ := books_of_reachable hr
  obtain ⟨hu', -, -⟩ := books_of_reachable hr'
  cases a with
  | spawn i call =>
      obtain ⟨-, rfl⟩ := next_spawn_iff.mp hn
      exact .inl hb
  | crash i =>
      obtain ⟨call, p, -, rfl⟩ := next_crash_iff.mp hn
      exact .inl (hb.congr rfl)
  | step i ch =>
      obtain ⟨call, c, k, r, t, hth, he, rfl⟩ := next_step_iff.mp hn
      have C := api_certified P config (fun _ _ _ _ _ => True) .true
      rcases (C.step hr hth trivial he).2.1.2.2.db with heq | heffect
      · exact .inl (hb.congr heq)
      obtain ⟨hs, rfl⟩ := hb
      have hs' : t.db.Solvent := solvent_of_reachable hr'
      rcases heffect.operation hs hs' hu hu' hbooks with hsame | ⟨o, hstep, hshows⟩
      · exact .inl ⟨hs', hsame.symm⟩
      · obtain ⟨client, ws, hws, hdb⟩ := wrote_of_step hr hth he
        rw [hdb] at hshows
        exact .inr ⟨(call, o), t.db.accounts hs', ⟨hstep, performs_of_shows hws hshows⟩, ⟨hs', rfl⟩,
          i, ch, _, rfl, hth⟩

/-- The API is a bank. Whatever a run does, with any faults and in any interleaving,
the bank does beside it on the accounts behind the tables, and each operation is
performed by the step of a thread whose call is there for it. The balances change by
what these operations add up to; each funding is announced once and credited at most
once after that, each payout leaves its wallet once and is given back at most once
after that. -/
theorem refines_accounts {as as' : List (Action (walletApi P config))}
    (h : Traced (requests P config).Moves (.initial World.initial) as cfg)
    (hrun : Traced (requests P config).Moves cfg as' cfg') :
    ∃ b b' ms ms', ms.map (·.1) = as ∧ ms'.map (·.1) = as' ∧
      World.StandsFor cfg.state b ∧ World.StandsFor cfg'.state b' ∧
      Traced (Abreast (requests P config) Performs World.StandsFor StepOf)
        (.initial World.initial, .empty) ms (cfg, b) ∧
      Traced (Abreast (requests P config) Performs World.StandsFor StepOf) (cfg, b) ms' (cfg', b') ∧
      (∀ walletId, sumSuccessfulBalance cfg'.state.db walletId =
        sumSuccessfulBalance cfg.state.db walletId +
          ((ms'.filterMap (·.2)).map (·.2.effect walletId)).sum) ∧
      (∀ id, Life ((((ms ++ ms').filterMap (·.2)).map (·.2)).filterMap (·.deposit id))) ∧
      ∀ id, Life ((((ms ++ ms').filterMap (·.2)).map (·.2)).filterMap (·.payout id)) := by
  obtain ⟨ms, b, htrace, rfl, hb⟩ := simulates_accounts.abreast .initial ⟨.empty, rfl⟩ h
  obtain ⟨ms', b', htrace', rfl, hb'⟩ :=
    simulates_accounts.abreast (Reachable.initial.traced h) hb hrun
  have hops : Traced Step .empty (((ms ++ ms').filterMap (·.2)).map (·.2)) b' :=
    operations_of_traced (htrace.append htrace').visible
  refine ⟨b, b', ms, ms', rfl, rfl, hb, hb', htrace, htrace', fun walletId => ?_,
    fun id => (life_of_deposit hops id).1, fun id => (life_of_payout hops id).1⟩
  obtain ⟨_, rfl⟩ := hb
  obtain ⟨_, rfl⟩ := hb'
  have hsum := balance_of_traced (operations_of_traced htrace'.visible) walletId
  rw [List.map_map] at hsum
  exact hsum

/-- Ada has been funded, and sends money to Bob and to her bank. -/
def bankingSchedule : List (Action (walletApi platform mockConfig)) :=
  sendToBob 6 idempotencyKey "x1" "r2" "r3" ++ payToBank 7 secondKey "v" "x2" "r4"

theorem refines_accounts_schedule :
    ∃ (cfg cfg' : Machine.Config (walletApi platform mockConfig))
      (ms : List (Action (walletApi platform mockConfig) ×
        Option (Call × Operation String String String))),
      Machine.replayUnder (requests platform mockConfig) (.initial World.initial) fundedAda =
        some cfg ∧
      Machine.replayUnder (requests platform mockConfig) cfg bankingSchedule = some cfg' ∧
      ms.map (·.1) = bankingSchedule ∧
      ((ms.filterMap (·.2)).map (·.2.effect "w1")).sum = -700 := by
  have hrun : ((Machine.replayUnder (requests platform mockConfig) (.initial World.initial)
      fundedAda).bind fun cfg =>
        (Machine.replayUnder (requests platform mockConfig) cfg bankingSchedule).map
          fun cfg' => (cfg, cfg')).any fun cfgs =>
            sumSuccessfulBalance cfgs.1.state.db "w1" = 1000 ∧
              sumSuccessfulBalance cfgs.2.state.db "w1" = 300 := by decide +kernel
  obtain ⟨⟨cfg, cfg'⟩, hcfgs, hbalances⟩ := (Option.any_eq_true ..).mp hrun
  obtain ⟨hbefore, hafter⟩ := of_decide_eq_true hbalances
  obtain ⟨mid, hcfg, hrest⟩ := Option.bind_eq_some_iff.mp hcfgs
  obtain ⟨last, hcfg', heq⟩ := Option.map_eq_some_iff.mp hrest
  cases heq
  obtain ⟨-, -, -, ms, -, hactions, -, -, -, -, hsum, -⟩ :=
    refines_accounts (.replayUnder hcfg) (.replayUnder hcfg')
  refine ⟨cfg, cfg', ms, hcfg, hcfg', hactions, ?_⟩
  have hsum := hsum "w1"
  rw [hafter, hbefore] at hsum
  omega

end WalletApi
