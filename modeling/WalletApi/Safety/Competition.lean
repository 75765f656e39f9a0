import Mathlib.Data.Finset.Card
import Mathlib.Tactic.Ring
import WalletApi.Concurrency.Stretch
import WalletApi.Concurrency.Progress
import WalletApi.Runs.Commits
import WalletApi.Safety.Earnings
import WalletApi.Safety.NewKeys

/-!
Requests that compete for the money of one wallet.

Any number of threads ask for the same amount from one wallet, each with a key of its
own, some of them for another user and some for a bank account. No connection fails,
what is generated is new, and the other threads, whatever they do, leave the journal of
the wallet alone. Then the money decides: exactly as many requests succeed as the
balance pays for, and the others are refused.

The invariant that carries the proof ties the balance to the number of keys that have
been used: each of them has taken the amount once. A thread may rely on it that nobody
else uses its key, from the moment before it exists until after it has ended.
-/

namespace WalletApi

open Concurrency ReadCommitted Machine World Policy WithdrawalRepository WalletTransactionRepository

/-! ### The requests -/

/-- A request for money to leave a wallet. -/
inductive Outflow
  | p2p (data : ExecuteP2pWithdrawalData)
  | bank (data : ExecuteBankWithdrawalData)
  deriving DecidableEq

namespace Outflow

def call : Outflow → Call
  | p2p data => .executeP2p data
  | bank data => .executeBankAccept data

def ofCall : Call → Option Outflow
  | .executeP2p data => some (.p2p data)
  | .executeBankAccept data => some (.bank data)
  | _ => none

theorem ofCall_eq_some {call : Call} {o : Outflow} : ofCall call = some o ↔ call = o.call := by
  constructor
  · intro h
    unfold ofCall at h
    split at h
    · cases h
      rfl
    · cases h
      rfl
    · cases h
  · rintro rfl
    cases o <;> rfl

theorem isApi_call (o : Outflow) : o.call.isApi = false := by
  cases o <;> rfl

theorem call_injective {o o' : Outflow} (h : o.call = o'.call) : o = o' :=
  Option.some.inj ((ofCall_eq_some.mpr rfl).symm.trans (ofCall_eq_some.mpr h))

instance (call : Call) (o : Outflow) : Decidable (call = o.call) := decidable_of_iff _ ofCall_eq_some

def idempotencyKey : Outflow → String
  | p2p data => data.idempotencyKey
  | bank data => data.idempotencyKey

/-- The texts that the request brings along. -/
def texts : Outflow → List String
  | p2p data => data.texts
  | bank data => data.texts

/-- The user of the wallet asks for the amount, for somebody else. -/
def Debits (wallet : Wallet) (amount : ℤ) : Outflow → Prop
  | p2p data => data.userId = wallet.userId ∧ data.senderWalletId = wallet.id ∧
      data.destinationWalletId ≠ wallet.id ∧ data.amount = amount
  | bank data => data.userId = wallet.userId ∧ data.walletId = wallet.id ∧ data.amount = amount

instance (wallet : Wallet) (amount : ℤ) (o : Outflow) : Decidable (o.Debits wallet amount) :=
  match o with
  | p2p data => inferInstanceAs (Decidable (data.userId = wallet.userId ∧
      data.senderWalletId = wallet.id ∧ data.destinationWalletId ≠ wallet.id ∧ data.amount = amount))
  | bank data => inferInstanceAs (Decidable (data.userId = wallet.userId ∧
      data.walletId = wallet.id ∧ data.amount = amount))

/-- The wallet that the money goes to is there. -/
def Reaches (d : Db) : Outflow → Prop
  | p2p data => ∃ x ∈ d.wallets, x.id = data.destinationWalletId
  | bank _ => True

instance (d : Db) (o : Outflow) : Decidable (o.Reaches d) :=
  match o with
  | p2p data => inferInstanceAs (Decidable (∃ x ∈ d.wallets, x.id = data.destinationWalletId))
  | bank _ => .isTrue trivial

theorem Reaches.mono {d d' : Db} {o : Outflow} (h : o.Reaches d)
    (hd : ∀ x ∈ d.wallets, x ∈ d'.wallets) : o.Reaches d' := by
  cases o with
  | p2p data =>
      obtain ⟨x, hx, hid⟩ := h
      exact ⟨x, hd x hx, hid⟩
  | bank data => trivial

end Outflow

/-- The debit of a withdrawal has one of the keys that belong to the request. -/
theorem Withdrawal.debitData_rowKey (w : Withdrawal) :
    w.debitData.idempotencyKey ∈ withdrawalRowKeys w.userId w.idempotencyKey := by
  unfold debitData
  split
  · exact .head _
  · exact .tail _ (.tail _ (.head _))

/-- Each of the threads asks for the amount from the wallet, with a key of its own. -/
structure Contest where
  wallet : Wallet
  amount : ℤ
  threads : Finset ℕ
  request : ℕ → Outflow
  amount_min : 1 ≤ amount
  amount_max : amount ≤ 2147483647
  debits : ∀ i ∈ threads, (request i).Debits wallet amount
  uuid : ∀ i ∈ threads, isUuid4 (request i).idempotencyKey = true
  distinct : ∀ i ∈ threads, ∀ j ∈ threads,
    (request i).idempotencyKey = (request j).idempotencyKey → i = j

namespace Contest

variable (C : Contest) {P : Platform} {config : Config} {i j : ℕ} {s t : World} {d d' : Db} {b : ℤ}

/-- The columns can hold the texts of the requests. -/
def Fits : Prop := ∀ i ∈ C.threads, ∀ text ∈ (C.request i).texts, isColumnText text = true

instance : Decidable C.Fits :=
  inferInstanceAs (Decidable (∀ i ∈ C.threads, ∀ text ∈ (C.request i).texts, isColumnText text = true))

/-- The key of the thread has been used. -/
def used (d : Db) (i : ℕ) : Bool :=
  Key.withdrawalIdempotencyKey C.wallet.userId (C.request i).idempotencyKey ∈ d.keys

/-- How many of the keys have been used. -/
def taken (d : Db) : ℕ := (C.threads.filter fun i => C.used d i).card

/-- Nobody has used one of the keys, and all wallets are there. -/
structure Fair (d : Db) : Prop where
  wallet : C.wallet ∈ d.wallets
  destinations : ∀ i ∈ C.threads, (C.request i).Reaches d
  unused : ∀ i ∈ C.threads, C.used d i = false

instance : Decidable (C.Fair d) :=
  decidable_of_iff (C.wallet ∈ d.wallets ∧ (∀ i ∈ C.threads, (C.request i).Reaches d) ∧
      ∀ i ∈ C.threads, C.used d i = false)
    ⟨fun h => ⟨h.1, h.2.1, h.2.2⟩, fun h => ⟨h.wallet, h.destinations, h.unused⟩⟩

/-- Each key that has been used has taken the amount once. -/
structure Holds (b : ℤ) (d : Db) : Prop where
  wallet : C.wallet ∈ d.wallets
  destinations : ∀ i ∈ C.threads, (C.request i).Reaches d
  balance : sumSuccessfulBalance d C.wallet.id = b - C.amount * C.taken d

/-- The thread serves its own request. -/
def Entered (i : ℕ) (call : Call) : Prop := i ∈ C.threads ∧ call = (C.request i).call

variable (P config) in
/-- The step leaves the journal of the wallet alone. -/
def spares (i : ℕ) (c : Cmd) (ch : Choice) (s : World) : Bool :=
  (World.exec P config i c ch s).all fun x => x.2.db.journalOf C.wallet.id = s.db.journalOf C.wallet.id

variable (P config) in
/-- No connection fails, what the requests generate is new, and nobody else writes to
the wallet. -/
def assumptions : Assumptions (walletApi P config) where
  admits call := call.isApi = true ∨ ∃ i ∈ C.threads, call = (C.request i).call
  allows call i c ch s := ch.fault = .none ∧
    (C.Entered i call → c.EntersNew s ∧ isColumnText ch.text = true) ∧
    (¬C.Entered i call → C.spares P config i c ch s = true)

instance : DecidablePred (C.assumptions P config).admits := fun (call : Call) =>
  inferInstanceAs (Decidable (call.isApi = true ∨ ∃ i ∈ C.threads, call = (C.request i).call))

instance (call : Call) : Decidable (C.Entered i call) :=
  inferInstanceAs (Decidable (i ∈ C.threads ∧ call = (C.request i).call))

instance : ∀ call i c ch s, Decidable ((C.assumptions P config).allows call i c ch s) :=
  fun (call : Call) i (c : Cmd) (ch : Choice) (s : World) => inferInstanceAs (Decidable (ch.fault = .none ∧
    (C.Entered i call → c.EntersNew s ∧ isColumnText ch.text = true) ∧ (¬C.Entered i call → C.spares P config i c ch s = true)))

/-! ### Keys -/

theorem used_iff : C.used d i = true ↔
    ∃ w ∈ d.withdrawals, w.userId = C.wallet.userId ∧
      w.idempotencyKey = (C.request i).idempotencyKey := by
  rw [used, decide_eq_true_iff, mem_keys_withdrawalIdempotencyKey]

theorem not_used (h : C.used d i = false) : ∀ w ∈ d.withdrawals,
    ¬(w.userId = C.wallet.userId ∧ w.idempotencyKey = (C.request i).idempotencyKey) := by
  intro w hw hboth
  rw [C.used_iff.mpr ⟨w, hw, hboth⟩] at h
  cases h

theorem used_mono (h : ∀ k ∈ d.keys, k ∈ d'.keys) (hused : C.used d i = true) : C.used d' i = true :=
  decide_eq_true (h _ (of_decide_eq_true hused))

theorem freeKey (hb : d.Books) (hi : i ∈ C.threads) (h : C.used d i = false) :
    d.FreeKey C.wallet.userId (C.request i).idempotencyKey :=
  Db.freeKey hb (C.uuid i hi) (C.not_used h)

theorem taken_mono (h : ∀ k ∈ d.keys, k ∈ d'.keys) : C.taken d ≤ C.taken d' :=
  Finset.card_le_card fun _ hi => Finset.mem_filter.mpr
    ⟨(Finset.mem_filter.mp hi).1, C.used_mono h (Finset.mem_filter.mp hi).2⟩

theorem taken_congr (h : ∀ i ∈ C.threads, C.used d' i = C.used d i) : C.taken d' = C.taken d := by
  rw [taken, taken, Finset.filter_congr fun i hi => by rw [h i hi]]

/-- The key of one thread is used, the others are not touched. -/
theorem taken_succ (hi : i ∈ C.threads) (hbefore : C.used d i = false) (hafter : C.used d' i = true)
    (hothers : ∀ j ∈ C.threads, j ≠ i → C.used d' j = C.used d j) : C.taken d' = C.taken d + 1 := by
  have hinsert : (C.threads.filter fun j => C.used d' j) = insert i (C.threads.filter fun j => C.used d j) := by
    ext j
    simp only [Finset.mem_filter, Finset.mem_insert]
    by_cases hj : j = i
    · subst hj
      simp [hi, hafter]
    · by_cases hmem : j ∈ C.threads
      · simp [hj, hothers j hmem hj]
      · simp [hj, hmem]
  have hnew : i ∉ C.threads.filter fun j => C.used d j := by simp [hbefore]
  rw [taken, taken, hinsert, Finset.card_insert_of_notMem hnew]

/-- Nobody uses a key of the wallet's user without a debit in the journal of the wallet. -/
theorem used_congr (hb : d.Books) (hu' : d'.Unique) (hb' : d'.Books) (hwallet : C.wallet ∈ d'.wallets)
    (hkeys : ∀ k ∈ d.keys, k ∈ d'.keys)
    (hjournal : d'.journalOf C.wallet.id = d.journalOf C.wallet.id) (hi : i ∈ C.threads) :
    C.used d' i = C.used d i := by
  cases hbefore : C.used d i with
  | true => exact C.used_mono hkeys hbefore
  | false =>
      -- The withdrawal would have its debit in the journal, which is the same as before.
      by_contra hne
      obtain ⟨w, hw, huser, hkey⟩ := C.used_iff.mp (Bool.eq_true_of_not_eq_false hne)
      have hbooked := hb'.withdrawal w hw
      obtain ⟨x, hx, hxid, hxuser⟩ := hbooked.wallet
      obtain ⟨r, hr, -, hmade⟩ := hbooked.debit
      have hown : w.walletId = C.wallet.id := by
        rw [← hxid, hu'.wallet_of_userId hx hwallet (hxuser.trans huser)]
      have hrow : r ∈ d.journalOf C.wallet.id := by
        rw [← hjournal]
        refine List.mem_filter.mpr ⟨hr, decide_eq_true ?_⟩
        rw [hmade]
        exact w.debitData_walletId.trans hown
      have hrowKey : r.idempotencyKey ∈
          withdrawalRowKeys C.wallet.userId (C.request i).idempotencyKey := by
        rw [hmade, ← huser, ← hkey]
        exact w.debitData_rowKey
      obtain ⟨w₀, hw₀, hboth⟩ := exists_withdrawal_of_rowKey hb (C.uuid i hi)
        (List.mem_of_mem_filter hrow) hrowKey
      exact C.not_used hbefore w₀ hw₀ hboth

/-- A step of thread `i` uses no key but its own. -/
def Owns (i : ℕ) (d d' : Db) : Prop := ∀ j ∈ C.threads, C.used d' j = true → C.used d j = true ∨ j = i

theorem used_of_created {w : Withdrawal} (hw : d'.withdrawals = d.withdrawals ++ [w])
    (huser : w.userId = C.wallet.userId) (hkey : w.idempotencyKey = (C.request i).idempotencyKey) :
    C.used d' i = true :=
  C.used_iff.mpr ⟨w, hw ▸ List.mem_append_right _ (.head _), huser, hkey⟩

/-- A withdrawal with the key of thread `i` takes the amount. -/
theorem Holds.debit {w : Withdrawal} (h : C.Holds b d) (hi : i ∈ C.threads)
    (hbefore : C.used d i = false) (hwallets : d'.wallets = d.wallets)
    (hw : d'.withdrawals = d.withdrawals ++ [w]) (huser : w.userId = C.wallet.userId)
    (hkey : w.idempotencyKey = (C.request i).idempotencyKey)
    (hbalance : sumSuccessfulBalance d' C.wallet.id = sumSuccessfulBalance d C.wallet.id - C.amount) :
    C.Holds b d' ∧ C.Owns i d d' := by
  have hafter : C.used d' i = true := C.used_of_created hw huser hkey
  -- The keys are different, so the withdrawal uses no other key.
  have hothers : ∀ j ∈ C.threads, j ≠ i → C.used d' j = C.used d j := by
    intro j hj hji
    rw [Bool.eq_iff_iff, C.used_iff, C.used_iff, hw]
    constructor
    · rintro ⟨x, hx, hxuser, hxkey⟩
      rcases List.mem_append.mp hx with hold | hnew
      · exact ⟨x, hold, hxuser, hxkey⟩
      · rw [List.mem_singleton.mp hnew, hkey] at hxkey
        exact absurd (C.distinct i hi j hj hxkey).symm hji
    · rintro ⟨x, hx, hboth⟩
      exact ⟨x, List.mem_append_left _ hx, hboth⟩
  refine ⟨⟨hwallets ▸ h.wallet, fun j hj => (h.destinations j hj).mono fun x hx => hwallets ▸ hx, ?_⟩,
    fun j hj hused => ?_⟩
  · rw [hbalance, h.balance, C.taken_succ hi hbefore hafter hothers]
    push_cast
    ring
  · by_cases hji : j = i
    · exact .inr hji
    · exact .inl (hothers j hj hji ▸ hused)

/-! ### The discipline of the contest -/

variable (P config) in
/-- The books are kept, and each use of a key takes the amount once. -/
def contention (b : ℤ) : Policy where
  Inv s := (bookkeeping fun _ _ _ _ _ => True).Inv s ∧ C.Holds b s.db
  Guar i s t := (bookkeeping fun _ _ _ _ _ => True).Guar i s t ∧ C.Owns i s.db t.db
  Allows := (C.assumptions P config).allows
  quiet {i s t} hq h := by
    obtain ⟨hinv, hguar⟩ := (bookkeeping fun _ _ _ _ _ => True).quiet (i := i) hq h.1
    refine ⟨⟨hinv, hq.db ▸ h.2⟩, hguar, ?_⟩
    rw [hq.db]
    exact fun _ _ hused => .inl hused

variable {q : Call} {ws : List Write}

theorem not_faulty : ¬(C.contention P config b).Faulty := by
  rintro ⟨q, i, c, ch, s, hallows, hfault⟩
  exact hfault hallows.1

theorem novel (hq : C.Entered i q) : (C.contention P config b).Novel q i where
  enters h := (h.2.1 hq).1
  text h := (h.2.1 hq).2

/-- The others cannot use the key of a thread, whether it exists or not. -/
theorem unused_protected (hi : i ∈ C.threads) :
    Protected P config (C.contention P config b) i [] fun s => C.used s.db i = false where
  others {j s t} hj _ _ _ hg h := by
    rcases hafter : C.used t.db i with _ | _
    · rfl
    · rcases hg.2.2.2 i hi hafter with hused | hij
      · exact hused.symm.trans h
      · exact absurd hij.symm hj
  quiet hq h := by
    rw [hq.db]
    exact h

/-- A thread that does not serve one of the requests has to do no more than before. -/
theorem strengthens (hq : ¬C.Entered i q) :
    RelyGuarantee.Strengthens ((bookkeeping fun _ _ _ _ _ => True).discipline P config)
      ((C.contention P config b).discipline P config) q i where
  inv h := ⟨h.1, h.2.1, h.2.2.1⟩
  guar h := ⟨h.1, h.2.1, h.2.2.1⟩
  step h := by
    obtain ⟨ch, -, he⟩ := h
    exact ⟨ch, trivial, he⟩
  demand h := h
  own {c s r t} hs hstep ht hg := by
    obtain ⟨ch, hallows, he⟩ := hstep
    have hjournal : t.db.journalOf C.wallet.id = s.db.journalOf C.wallet.id := by
      have hspares : (World.exec P config i c ch s).all _ = true := hallows.2.2 hq
      rw [he] at hspares
      exact of_decide_eq_true hspares
    have hstepped : Stepped P config i s t := hg.1
    have hholds := hs.2.2.2
    have hkeys : ∀ k ∈ s.db.keys, k ∈ t.db.keys := fun _ hk => hstepped.keys hk
    have hwallets := hstepped.grows.wallets
    have hused : ∀ j ∈ C.threads, C.used t.db j = C.used s.db j := fun j hj =>
      C.used_congr hs.2.2.1.2.1 ht.2.1 ht.2.2.2.1 (hwallets _ hholds.wallet) hkeys hjournal hj
    refine ⟨⟨ht.1, ht.2.1, ht.2.2, hwallets _ hholds.wallet,
      fun j hj => (hholds.destinations j hj).mono hwallets, ?_⟩, hg.1, hg.2.1, hg.2.2,
      fun j hj h => .inl (hused j hj ▸ h)⟩
    rw [sumSuccessfulBalance_congr hjournal, hholds.balance, C.taken_congr hused]

theorem runs_bookkeeping (h : ((C.contention P config b).discipline P config).Runs s t) :
    ((bookkeeping fun _ _ _ _ _ => True).discipline P config).Runs s t :=
  RelyGuarantee.Runs.lift h _ (fun _ => .refl) (fun h h' => h.trans h') fun hs ht hg =>
    .single ⟨⟨hs.1, hs.2.1, hs.2.2.1⟩, ⟨ht.1, ht.2.1, ht.2.2.1⟩, _, hg.1, hg.2.1, hg.2.2.1⟩

theorem commits_bookkeeping (h : Commits P config (C.contention P config b) q i ws s t) :
    Commits P config (bookkeeping fun _ _ _ _ _ => True) q i ws s t where
  inv := ⟨h.inv.1, h.inv.2.1, h.inv.2.2.1⟩
  opened := h.opened
  taken := by
    obtain ⟨ch, hfault, -⟩ := h.taken
    exact ⟨ch, hfault, trivial⟩
  fresh := h.fresh
  db := h.db
  unique := h.unique
  bank := h.bank
  history := h.history

/-! ### The requests keep it -/

/-- The request has been accepted, and its key is used. -/
def Accepted (i : ℕ) (r : Response) (s : World) : Prop :=
  ∃ w, r = .executed ⟨w, true⟩ ∧ C.used s.db i = true

/-- The key of the thread is not used, and the balance does not cover the amount. -/
def Poor (i : ℕ) (s : World) : Prop :=
  C.used s.db i = false ∧ sumSuccessfulBalance s.db C.wallet.id < C.amount

theorem wp_p2p {data : ExecuteP2pWithdrawalData} (hfits : C.Fits) (hi : i ∈ C.threads)
    (hrequest : C.request i = .p2p data) (hq : C.Entered i q)
    (hs : ((C.contention P config b).discipline P config).Inv s) (hunused : C.used s.db i = false) :
    ((C.contention P config b).discipline P config).wp q i (executeP2p data)
      (fun r u => C.Accepted i (.executed r) u) (Insufficient (C.Poor i)) s := by
  have hdebits := C.debits i hi
  have hkey := C.uuid i hi
  have hreaches := hs.2.2.2.destinations i hi
  have htexts := hfits i hi
  rw [hrequest] at hdebits hkey hreaches htexts
  obtain ⟨huser, hsender, hother, hamount⟩ := hdebits
  have hown : data.idempotencyKey = (C.request i).idempotencyKey :=
    (congrArg Outflow.idempotencyKey hrequest).symm
  have hwallet := hs.2.2.2.wallet
  refine wp_executeP2p_new C.not_faulty (C.novel hq) (C.unused_protected hi)
    (fun hinv h => C.freeKey hinv.2.2.1.2.1 hi h) huser hown
    (hamount ▸ C.amount_min) (hamount ▸ C.amount_max) htexts hunused ?_ ?_ ?_ ?_
  · intro id hid
    rcases List.mem_cons.mp hid with rfl | hid
    · exact ⟨_, hwallet, hsender.symm⟩
    · rw [List.mem_singleton.mp hid]
      exact hreaches
  · intro u hu hpoor
    rw [hsender, hamount] at hpoor
    exact ⟨hu, hpoor⟩
  · intro t u a b' c hst ht hc hfunds hlock hids
    have hc' := C.commits_bookkeeping hc
    obtain ⟨hinv, hguar⟩ := grantsP2p (hamount ▸ C.amount_min) hkey
      ⟨_, hwallet, hsender.symm, huser.symm⟩ t u a b' c (C.runs_bookkeeping hst) hc' hfunds hlock hids
    have hdb := data.db_of_commits hc
    have hbalance : sumSuccessfulBalance u.db C.wallet.id =
        sumSuccessfulBalance t.db C.wallet.id - C.amount := by
      rw [sumSuccessfulBalance_append (congrArg Db.walletTransactions hdb), ← hamount, ← hsender]
      simp [WalletTransaction.effect, WalletTransaction.signed, CreateWalletTransactionData.row,
        ExecuteP2pWithdrawalData.debit, ExecuteP2pWithdrawalData.credit, hsender, hother]
      omega
    have hwallets : u.db.wallets = t.db.wallets := by rw [hdb]
    have hnew : u.db.withdrawals = t.db.withdrawals ++ [data.final a b' c] := by rw [hdb]
    obtain ⟨hholds, howns⟩ := Holds.debit C hc.inv.2.2.2 hi ht hwallets hnew huser hown hbalance
    exact ⟨⟨hinv, hholds⟩, hguar, howns⟩
  · intro t u a b' c hc
    have hdb := data.db_of_commits hc
    have hnew : u.db.withdrawals = t.db.withdrawals ++ [data.final a b' c] := by rw [hdb]
    exact ⟨_, rfl, C.used_of_created hnew huser hown⟩

theorem wp_bank {data : ExecuteBankWithdrawalData} (hfits : C.Fits) (hi : i ∈ C.threads)
    (hrequest : C.request i = .bank data) (hq : C.Entered i q)
    (hs : ((C.contention P config b).discipline P config).Inv s) (hunused : C.used s.db i = false) :
    ((C.contention P config b).discipline P config).wp q i (executeBankAccept data)
      (fun r u => C.Accepted i (.executed r) u) (Insufficient (C.Poor i)) s := by
  have hdebits := C.debits i hi
  have hkey := C.uuid i hi
  have htexts := hfits i hi
  rw [hrequest] at hdebits hkey htexts
  obtain ⟨huser, hsender, hamount⟩ := hdebits
  have hown : data.idempotencyKey = (C.request i).idempotencyKey :=
    (congrArg Outflow.idempotencyKey hrequest).symm
  have hwallet := hs.2.2.2.wallet
  refine wp_executeBankAccept_new C.not_faulty (C.novel hq) (C.unused_protected hi)
    (fun hinv h => C.freeKey hinv.2.2.1.2.1 hi h) huser hown
    (hamount ▸ C.amount_min) (hamount ▸ C.amount_max) htexts hunused ⟨_, hwallet, hsender.symm⟩ ?_ ?_ ?_
  · intro u hu hpoor
    rw [hsender, hamount] at hpoor
    exact ⟨hu, hpoor⟩
  · intro t u a c hst ht hc hfunds hlock hid
    have hc' := C.commits_bookkeeping hc
    obtain ⟨hinv, hguar⟩ := grantsBank (hamount ▸ C.amount_min) hkey
      ⟨_, hwallet, hsender.symm, huser.symm⟩ t u a c (C.runs_bookkeeping hst) hc' hfunds hlock hid
    have hdb := data.db_of_commits hc
    have hbalance : sumSuccessfulBalance u.db C.wallet.id =
        sumSuccessfulBalance t.db C.wallet.id - C.amount := by
      rw [sumSuccessfulBalance_append (congrArg Db.walletTransactions hdb), ← hamount, ← hsender]
      simp [WalletTransaction.effect, WalletTransaction.signed, CreateWalletTransactionData.row,
        ExecuteBankWithdrawalData.debit]
      omega
    have hwallets : u.db.wallets = t.db.wallets := by rw [hdb]
    have hnew : u.db.withdrawals = t.db.withdrawals ++ [data.final a c] := by rw [hdb]
    obtain ⟨hholds, howns⟩ := Holds.debit C hc.inv.2.2.2 hi ht hwallets hnew huser hown hbalance
    exact ⟨⟨hinv, hholds⟩, hguar, howns⟩
  · intro t u a c hc
    have hdb := data.db_of_commits hc
    have hnew : u.db.withdrawals = t.db.withdrawals ++ [data.final a c] := by rw [hdb]
    exact ⟨_, rfl, C.used_of_created hnew huser hown⟩

/-- The answer of a request. -/
def Answers (call : Call) (i : ℕ) (r : Response) (s : World) : Prop :=
  C.Entered i call → C.Accepted i r s

def Fails (call : Call) (i : ℕ) (e : Err) (s : World) : Prop :=
  C.Entered i call → Insufficient (C.Poor i) e s

theorem wp_entered {call : Call} (hfits : C.Fits) (h : C.Entered i call)
    (hs : ((C.contention P config b).discipline P config).Inv s) (hunused : C.used s.db i = false) :
    ((C.contention P config b).discipline P config).wp call i (program P config call)
      (C.Answers call i) (C.Fails call i) s := by
  have hi := h.1
  have hentered := h
  obtain ⟨-, rfl⟩ := h
  have hwp : ((C.contention P config b).discipline P config).wp (C.request i).call i
      (program P config (C.request i).call) (C.Accepted i) (Insufficient (C.Poor i)) s := by
    cases hrequest : C.request i with
    | p2p data => exact wp_map (C.wp_p2p hfits hi hrequest (hrequest ▸ hentered) hs hunused)
    | bank data => exact wp_map (C.wp_bank hfits hi hrequest (hrequest ▸ hentered) hs hunused)
  exact RelyGuarantee.wp_mono (fun _ _ hr _ => hr) (fun _ _ he _ => he) _ hwp

/-- A call that is not one of the requests keeps the books, and that is enough. -/
theorem wp_outsider {call : Call} (h : ¬C.Entered i call)
    (hadmits : (C.assumptions P config).admits call)
    (hs : ((C.contention P config b).discipline P config).Inv s) :
    ((C.contention P config b).discipline P config).wp call i (program P config call)
      (C.Answers call i) (C.Fails call i) s := by
  refine RelyGuarantee.wp_mono (fun _ _ _ hent => absurd hent h) (fun _ _ _ hent => absurd hent h) _
    (RelyGuarantee.wp_strengthen (C.strengthens h) _ (Q := fun _ _ => True) (E := fun _ _ => True) ?_)
  rcases hadmits with hapi | ⟨j, hj, rfl⟩
  · exact RelyGuarantee.wp_mono (fun _ _ _ => trivial) (fun _ _ _ => trivial) _
      ((api_certified P config _ .true).call hapi ⟨hs.1, hs.2.1, hs.2.2.1⟩)
  · have hdebits := C.debits j hj
    have hkey := C.uuid j hj
    have hwallet := hs.2.2.2.wallet
    cases hrequest : C.request j with
    | p2p data =>
        rw [hrequest] at hdebits hkey
        obtain ⟨huser, hsender, -, hamount⟩ := hdebits
        exact wp_map (wp_executeP2p (fun _ => True) (fun _ _ _ => trivial) .true
          (fun _ _ _ _ => trivial) (grantsP2p (hamount ▸ C.amount_min) hkey
            ⟨_, hwallet, hsender.symm, huser.symm⟩) (fun _ _ _ => trivial)
          fun _ _ _ _ _ _ _ _ => trivial)
    | bank data =>
        rw [hrequest] at hdebits hkey
        obtain ⟨huser, hsender, hamount⟩ := hdebits
        exact wp_map (wp_executeBankAccept (fun _ => True) (fun _ _ _ => trivial) .true
          (fun _ _ _ _ => trivial) (grantsBank (hamount ▸ C.amount_min) hkey
            ⟨_, hwallet, hsender.symm, huser.symm⟩) (fun _ _ _ => trivial)
          fun _ _ _ _ _ _ _ => trivial)

/-- What is known of a thread that does not exist yet. -/
def Known (i : ℕ) (s : World) : Prop := i ∈ C.threads → C.used s.db i = false

theorem stretch (hfits : C.Fits) : Stretch (C.assumptions P config) ((C.contention P config b).discipline P config)
    C.Known C.Answers C.Fails where
  covers ha he := ⟨_, ha, he⟩
  crash hs := crash_step hs
  known {i j s t} hj hs ht hg h hi :=
    (C.unused_protected hi).others hj (fun _ hw => absurd hw List.not_mem_nil) hs ht hg (h hi)
  call {call i s} hadmits hs hknown := by
    by_cases h : C.Entered i call
    · exact C.wp_entered hfits h hs (hknown h.1)
    · exact C.wp_outsider h hadmits hs

/-! ### The result -/

variable {cfg cfg' : Machine.Config (walletApi P config)}

theorem Fair.holds (h : C.Fair d) : C.Holds (sumSuccessfulBalance d C.wallet.id) d where
  wallet := h.wallet
  destinations := h.destinations
  balance := by
    have hnone : C.taken d = 0 := by
      rw [taken, Finset.card_eq_zero, Finset.filter_eq_empty_iff]
      intro i hi hused
      rw [h.unused i hi] at hused
      cases hused
    rw [hnone]
    simp

/-- What is under way when the contest begins belongs to other calls. -/
theorem kept_of_fair (h : Reachable (requests P config) World.initial cfg)
    (hfair : C.Fair (World.db cfg.state)) :
    Stretch.Kept ((C.contention P config
        (sumSuccessfulBalance (World.db cfg.state) C.wallet.id)).discipline P config)
      C.Known C.Answers C.Fails cfg := by
  obtain ⟨⟨hcoherent, hunique, hinv⟩, hthreads⟩ := (api_certified P config _ .true).reachable h
  refine ⟨⟨hcoherent, hunique, hinv, hfair.holds⟩, fun i call p hth => ?_, fun i _ => hfair.unused i⟩
  -- So far only calls of the API have been made, and none of the requests is one.
  have hne : ¬C.Entered i call := by
    rintro ⟨-, rfl⟩
    have hapi : (C.request i).call.isApi = true := h.admitted hth
    rw [Outflow.isApi_call] at hapi
    cases hapi
  obtain ⟨s, -, hrely, hwp⟩ := hthreads i call p hth
  refine ⟨cfg.state, ⟨hcoherent, hunique, hinv, hfair.holds⟩, .refl, ?_⟩
  exact RelyGuarantee.wp_mono (fun _ _ _ hent => absurd hent hne) (fun _ _ _ hent => absurd hent hne) p
    (RelyGuarantee.wp_strengthen (C.strengthens hne) p (RelyGuarantee.wp_rely p hrely hwp))

/-- The thread has answered that its withdrawal has been created. -/
def succeeded (cfg : Machine.Config (walletApi P config)) (i : ℕ) : Bool :=
  match Schedule.ended cfg i with
  | some (_, .ok (.executed result)) => result.created
  | _ => false

/-- The thread has answered that the balance does not cover the amount. -/
def Refused (cfg : Machine.Config (walletApi P config)) (i : ℕ) : Prop :=
  Schedule.ended cfg i = some ((C.request i).call,
    .error (customError.unprocessableEntity "Insufficient wallet balance"))

theorem keys_of_rely (h : ((C.contention P config b).discipline P config).Rely i s t) :
    ∀ k ∈ s.db.keys, k ∈ t.db.keys :=
  h.lift (fun s t => ∀ k ∈ s.db.keys, k ∈ t.db.keys) (fun _ _ hk => hk)
    (fun hst htu k hk => htu k (hst k hk)) fun _ _ _ hg _ hk =>
      have hstepped : Stepped P config _ _ _ := hg.1
      hstepped.keys hk

/-- How a request has ended. -/
theorem ended_as (h : Stretch.Kept ((C.contention P config b).discipline P config) C.Known C.Answers
      C.Fails cfg) (hi : i ∈ C.threads)
    (hended : ∃ r, Schedule.ended cfg i = some ((C.request i).call, r)) :
    succeeded cfg i = true ∧ C.used (World.db cfg.state) i = true ∨
      succeeded cfg i = false ∧ C.Refused cfg i ∧ C.Poor i cfg.state := by
  obtain ⟨r, hr⟩ := hended
  have hth := Schedule.threads_of_ended hr
  cases r with
  | ok a =>
      obtain ⟨s, -, hrely, hanswer⟩ := h.returned hth
      obtain ⟨w, rfl, hused⟩ := hanswer ⟨hi, rfl⟩
      refine .inl ⟨?_, C.used_mono (C.keys_of_rely hrely) hused⟩
      rw [succeeded, hr]
  | error e =>
      obtain ⟨s, hs, hrely, hfails⟩ := h.failed hth
      obtain ⟨rfl, hunused, hpoor⟩ := hfails ⟨hi, rfl⟩
      refine .inr ⟨by rw [succeeded, hr], hr, (C.unused_protected hi).rely hunused hrely, ?_⟩
      -- Since the refusal more keys may have been used, but none can have become unused.
      have htaken := C.taken_mono (C.keys_of_rely hrely)
      have hamount := C.amount_min
      have hbefore := hs.2.2.2.balance
      have hafter : sumSuccessfulBalance (World.db cfg.state) C.wallet.id =
        b - C.amount * C.taken (World.db cfg.state) := h.inv.2.2.2.balance
      have hspent : C.amount * (C.taken s.db : ℤ) ≤ C.amount * C.taken (World.db cfg.state) :=
        Int.mul_le_mul_of_nonneg_left (Int.ofNat_le.mpr htaken) (by omega)
      rw [hbefore] at hpoor
      rw [hafter]
      omega

end Contest

end WalletApi
