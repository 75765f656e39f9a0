import WalletApi.Runs.Faultless
import WalletApi.Safety.Amounts

/-!
Withdrawals with a key of their own.

If nothing fails, and if no other thread can use the key of a request, then a
withdrawal comes down to the balance: it is either committed, or refused because the
balance that it has found under the lock of the wallet does not cover the amount.
Nothing else can be in its way.
-/

namespace WalletApi

open Concurrency ReadCommitted Machine World Policy WithdrawalRepository WalletTransactionRepository

variable {P : Platform} {config : Config} {Γ : Policy} {q : Call} {i : ℕ} {s t u v : World} {d d' : Db}
  {L : List String} {F N : World → Prop} {userId key : String}

/-! ### A key of one's own -/

/-- No withdrawal and no row of the journal has been made with the key. -/
structure Db.FreeKey (d : Db) (userId key : String) : Prop where
  withdrawals : ∀ w ∈ d.withdrawals, ¬(w.userId = userId ∧ w.idempotencyKey = key)
  rows : ∀ k ∈ withdrawalRowKeys userId key, Key.walletTransactionIdempotencyKey k ∉ d.keys

theorem Db.freeKey (hb : d.Books) (hkey : isUuid4 key = true)
    (h : ∀ w ∈ d.withdrawals, ¬(w.userId = userId ∧ w.idempotencyKey = key)) : d.FreeKey userId key :=
  ⟨h, rowKeys_new hb hkey h⟩

/-- The error of a withdrawal that the balance does not cover, where `D` holds. -/
def Insufficient (D : World → Prop) (e : Err) (u : World) : Prop :=
  e = customError.unprocessableEntity "Insufficient wallet balance" ∧ D u

theorem wp_rethrow_insufficient {α : Type} {body : Program α} {Q : α → World → Prop} {D : World → Prop}
    (h : (Γ.discipline P config).wp q i body Q (Insufficient D) s) :
    (Γ.discipline P config).wp q i (rethrowWalletMissing body) Q (Insufficient D) s := by
  refine RelyGuarantee.wp_tryCatch (RelyGuarantee.wp_mono (fun _ _ hQ => hQ) ?_ _ h)
  rintro e u ⟨rfl, hD⟩
  exact ⟨rfl, hD⟩

namespace WithdrawalRepository

variable (hfault : ¬Γ.Faulty) (hnovel : Γ.Novel q i)
  (hN : Protected P config Γ i [] N)
  (hfree : ∀ {t}, (Γ.discipline P config).Inv t → N t → t.db.FreeKey userId key)

include hfault hN hfree

/-- The common part: with a key of one's own it comes down to the balance. -/
theorem wp_accept_new {sender : String} {amount : ℤ} (ids : List String) {locking : Program Unit}
    {rest : Program ExecuteWithdrawalResult} {D : World → Prop}
    {Q : ExecuteWithdrawalResult → World → Prop} (hsender : sender ∈ ids)
    (hD : ∀ u, N u → sumSuccessfulBalance u.db sender < amount → D u)
    (hlocking : ∀ {u Q'}, (Γ.discipline P config).Runs s u → Tx i [] [] N u →
      (∀ u' L, (Γ.discipline P config).Runs s u' → Tx i [] L N u' → (∀ id ∈ ids, id ∈ L) →
        (∀ id ∈ ids, ∃ x ∈ u'.db.wallets, x.id = id) → Q' () u') →
      (Γ.discipline P config).wp q i locking Q' (Undo P config Γ i (Insufficient D)) u)
    (hrest : ∀ u L F, (Γ.discipline P config).Runs s u →
      Funded P config Γ i sender ids amount N L F u →
      (Γ.discipline P config).wp q i rest
        (fun r u => (Γ.discipline P config).wp q i (perform .commit) (fun _ => Q r)
          (Undo P config Γ i (Insufficient D)) u) (Undo P config Γ i (Insufficient D)) u)
    (hs : (Γ.discipline P config).Runs s v) (htx : Tx i [] [] N v) :
    (Γ.discipline P config).wp q i
      (do
        let again ← findByUserAndIdempotencyKey .tx userId key
        match again with
        | some withdrawal => return { withdrawal, created := false }
        | none =>
            locking
            let available ← selectSuccessfulBalance .tx sender
            throwIf (available < amount)
              (customError.unprocessableEntity "Insufficient wallet balance")
            rest)
      (fun r u => (Γ.discipline P config).wp q i (perform .commit) (fun _ => Q r)
        (Undo P config Γ i (Insufficient D)) u) (Undo P config Γ i (Insufficient D)) v := by
  have hnet {E : Err → World → Prop} : ∀ u, Γ.Faulty → E .network u := fun _ hf => absurd hf hfault
  refine RelyGuarantee.wp_bind (wp_tx_select_nil hN hnet htx fun t u ho ht htx' => ?_)
  have hnone : Query.run (.withdrawalByUserAndIdempotencyKey userId key) t.db = none :=
    find?_withdrawal_eq_none (hfree ho.inv ht.fact).withdrawals
  rw [hnone]
  refine RelyGuarantee.wp_bind (hlocking (hs.trans (ho.runs_quiet rfl)) htx' ?_)
  intro u₁ L hu₁ htx₁ hlocked hexist
  have hNL : Protected P config Γ i L N := hN.mono fun w hw => absurd hw List.not_mem_nil
  refine RelyGuarantee.wp_bind (wp_tx_balance hNL hnet htx₁ fun u₂ available hu₂ htx₂ => ?_)
  have hF := hNL.and (Protected.balance (hlocked sender hsender) available)
  refine RelyGuarantee.wp_bind (wp_throwIf (fun hpoor => ?_) fun hfunds => ?_)
  · -- The lock is held until the transaction is undone, so the balance is still too low then.
    refine .inr ⟨_, L, _, hF, htx₂, fun w hw => ⟨rfl, hD w hw.1 ?_⟩⟩
    rw [hw.2]
    exact hpoor
  · refine hrest u₂ L _ (hu₁.trans hu₂) ⟨htx₂, hF, fun w hw => ⟨hw.1, ?_⟩, hlocked, ?_⟩
    · rw [hw.2]
      exact not_lt.mp hfunds
    · intro id hid
      obtain ⟨x, hx, hxid⟩ := hexist id hid
      exact ⟨x, (grows_of_runs hu₂).wallets x hx, hxid⟩

include hnovel

/-- `executeP2p` with a key of one's own, when nothing fails. -/
theorem wp_executeP2p_new {data : ExecuteP2pWithdrawalData} {D : World → Prop}
    {Q : ExecuteWithdrawalResult → World → Prop} (huser : data.userId = userId)
    (hkey : data.idempotencyKey = key) (hmin : 1 ≤ data.amount) (hmax : data.amount ≤ 2147483647)
    (htexts : ∀ text ∈ data.texts, isColumnText text = true) (hs : N s)
    (hwallets : ∀ id ∈ [data.senderWalletId, data.destinationWalletId], ∃ x ∈ s.db.wallets, x.id = id)
    (hD : ∀ u, N u → sumSuccessfulBalance u.db data.senderWalletId < data.amount → D u)
    (hgrants : ∀ t u a b c, (Γ.discipline P config).Runs s t → N t →
      Commits P config Γ q i (data.writes a b c) t u →
      data.amount ≤ sumSuccessfulBalance t.db data.senderWalletId →
      t.store.locks data.senderWalletId = some i →
      (∀ id ∈ [data.senderWalletId, data.destinationWalletId], ∃ x ∈ t.db.wallets, x.id = id) →
      Γ.Inv u ∧ Γ.Guar i t u)
    (hcreated : ∀ t u a b c, Commits P config Γ q i (data.writes a b c) t u →
      Q ⟨data.final a b c, true⟩ u) :
    (Γ.discipline P config).wp q i (executeP2p data) Q (Insufficient D) s := by
  subst huser hkey
  have hnet {E : Err → World → Prop} : ∀ u, Γ.Faulty → E .network u := fun _ hf => absurd hf hfault
  have hcol : -2147483648 ≤ data.amount := by omega
  have hids : (sortWalletIds [data.senderWalletId, data.destinationWalletId]).Perm
      [data.senderWalletId, data.destinationWalletId] := List.perm_insertionSort _ _
  refine RelyGuarantee.wp_bind (wp_select hnet fun t u ho => ?_)
  obtain ⟨ht, hu⟩ := hN.own hs ho rfl
  have hnone : Query.run (.withdrawalByUserAndIdempotencyKey data.userId data.idempotencyKey) t.db =
      none := find?_withdrawal_eq_none (hfree ho.inv ht).withdrawals
  rw [hnone]
  refine wp_rethrow_insufficient (wp_transaction_keeping hnet hN hu fun v hv htx => ?_)
  refine wp_accept_new hfault hN hfree [data.senderWalletId, data.destinationWalletId] (.head _) hD
    ?_ ?_ ((ho.runs_quiet rfl).trans hv) htx
  · -- Both wallets are there, and they are locked in ascending order.
    intro u₁ Q' hu₁ htx₁ hQ'
    refine wp_lockWalletRows_of (K := fun _ => N) hnet
      (fun _ => hN.mono fun w hw => absurd hw List.not_mem_nil)
      (fun _ _ _ _ hfact => hfact) _ hu₁ htx₁ (List.pairwise_insertionSort _ _)
      (fun a ha => absurd ha List.not_mem_nil) (fun u₂ hu₂ hex htx₂ => ?_) fun t₂ u₂ w ht₂ hw hmissing => ?_
    · refine hQ' u₂ _ (hu₁.trans hu₂) htx₂ (fun id hid => ?_) fun id hid => hex id (hids.mem_iff.mpr hid)
      rw [List.append_nil, List.mem_reverse, hids.mem_iff]
      exact hid
    · obtain ⟨x, hx, hxid⟩ := hwallets w (hids.mem_iff.mp hw)
      exact absurd hxid (hmissing x ((grows_of_runs ht₂).wallets x hx))
  · -- The four writes, none of which can be turned down, and their commit.
    intro u₁ L F hu₁ hfund
    have hF := hfund.prot
    have hnew {t₂ : World} (hinv : (Γ.discipline P config).Inv t₂) (hfact : F t₂) :
        t₂.db.FreeKey data.userId data.idempotencyKey := hfree hinv (hfund.fact t₂ hfact).1
    refine RelyGuarantee.wp_bind (wp_tx_defaults hF hfund.tx fun t₂ u₂ a ho₂ htx₂ => ?_)
    have ha := hnovel.stamp ho₂
    refine RelyGuarantee.wp_bind (wp_tx_write_new hfault hF htx₂
      ((data.storable_withdrawal ha).mpr ⟨⟨hcol, hmax⟩, htexts⟩)
      (fun _ _ _ => Option.some_ne_none _) (fun t₃ r u₃ ho₃ htx₃ => ?_) fun t₃ u₃ row ho₃ _ hrow htx₃ => ?_)
    · obtain ⟨ch, hallows, -⟩ := ho₃.exec
      refine Withdrawal.keys_new ((hnovel.enters hallows).new (.head _) rfl).1
        (hnew ho₃.inv htx₃.fact).withdrawals fun ref href => ?_
      cases href
    cases hrow
    have hstorable {b c : String × ℕ} := data.storable_writes (a := a) (b := b) (c := c) hcol hmax htexts ha
    refine RelyGuarantee.wp_bind (wp_insert_new hfault hF hnovel htx₃
      (fun b hb => hstorable hb ha _ (.tail _ (.head _))) (fun t₄ hinv htx₄ => ?_)
      fun u₄ b hb hu₄ htx₄ => ?_)
    · exact rowKey_new_after ((hnew hinv htx₄.fact).rows _ (.head _))
    refine RelyGuarantee.wp_bind (wp_insert_new hfault hF hnovel htx₄
      (fun c hc => hstorable hb hc _ (.tail _ (.tail _ (.head _)))) (fun t₅ hinv htx₅ => ?_)
      fun u₅ c hc hu₅ htx₅ => ?_)
    · exact data.creditKey_new ((hnew hinv htx₅.fact).rows _ (.tail _ (.head _)))
    refine RelyGuarantee.wp_bind (wp_tx_update_new hfault hF htx₅ (.head _) (.head _)
      (hstorable hb hc _ (.tail _ (.tail _ (.tail _ (.head _))))) rfl (data.result_final a b c) fun u₆ hu₆ htx₆ => ?_)
    have hbefore : (Γ.discipline P config).Runs u₁ u₆ :=
      ((((ho₂.runs_quiet rfl).trans (ho₃.runs_quiet rfl)).trans hu₄).trans hu₅).trans hu₆
    exact RelyGuarantee.wp_ret (wp_commit_funded hnet hfund (.head _) hbefore htx₆
      (fun hc => congrArg Db.walletTransactions (data.db_of_commits hc)) data.rows_owned
      (fun t u ht => hgrants t u a b c (hu₁.trans ht)) fun t u _ _ => hcreated t u a b c)

/-- `executeBankAccept` with a key of one's own, when nothing fails. -/
theorem wp_executeBankAccept_new {data : ExecuteBankWithdrawalData} {D : World → Prop}
    {Q : ExecuteWithdrawalResult → World → Prop} (huser : data.userId = userId)
    (hkey : data.idempotencyKey = key) (hmin : 1 ≤ data.amount) (hmax : data.amount ≤ 2147483647)
    (htexts : ∀ text ∈ data.texts, isColumnText text = true) (hs : N s) (hwallet : ∃ x ∈ s.db.wallets, x.id = data.walletId)
    (hD : ∀ u, N u → sumSuccessfulBalance u.db data.walletId < data.amount → D u)
    (hgrants : ∀ t u a b, (Γ.discipline P config).Runs s t → N t →
      Commits P config Γ q i (data.writes a b) t u →
      data.amount ≤ sumSuccessfulBalance t.db data.walletId →
      t.store.locks data.walletId = some i →
      (∃ x ∈ t.db.wallets, x.id = data.walletId) → Γ.Inv u ∧ Γ.Guar i t u)
    (hcreated : ∀ t u a b, Commits P config Γ q i (data.writes a b) t u →
      Q ⟨data.final a b, true⟩ u) :
    (Γ.discipline P config).wp q i (executeBankAccept data) Q (Insufficient D) s := by
  subst huser hkey
  have hnet {E : Err → World → Prop} : ∀ u, Γ.Faulty → E .network u := fun _ hf => absurd hf hfault
  have hcol : -2147483648 ≤ data.amount := by omega
  refine RelyGuarantee.wp_bind (wp_select hnet fun t u ho => ?_)
  obtain ⟨ht, hu⟩ := hN.own hs ho rfl
  have hnone : Query.run (.withdrawalByUserAndIdempotencyKey data.userId data.idempotencyKey) t.db =
      none := find?_withdrawal_eq_none (hfree ho.inv ht).withdrawals
  rw [hnone]
  refine wp_rethrow_insufficient (wp_transaction_keeping hnet hN hu fun v hv htx => ?_)
  refine wp_accept_new hfault hN hfree [data.walletId] (.head _) hD ?_ ?_
    ((ho.runs_quiet rfl).trans hv) htx
  · intro u₁ Q' hu₁ htx₁ hQ'
    refine wp_lockWalletRow hN htx₁ hnet (fun a ha => absurd ha List.not_mem_nil)
      (fun t₂ u₂ ho₂ _ hw htx₂ => ?_) fun t₂ u₂ ht₂ hmissing _ => ?_
    · refine hQ' u₂ [data.walletId] (hu₁.trans (ho₂.runs_quiet rfl)) htx₂ (fun id hid => hid)
        fun id hid => ?_
      rw [List.mem_singleton.mp hid, ho₂.db_quiet rfl]
      exact hw
    · obtain ⟨x, hx, hxid⟩ := hwallet
      exact absurd hxid (hmissing x ((grows_of_runs (hu₁.trans ht₂)).wallets x hx))
  · -- The three writes, none of which can be turned down, and their commit.
    intro u₁ L F hu₁ hfund
    have hF := hfund.prot
    have hnew {t₂ : World} (hinv : (Γ.discipline P config).Inv t₂) (hfact : F t₂) :
        t₂.db.FreeKey data.userId data.idempotencyKey := hfree hinv (hfund.fact t₂ hfact).1
    refine RelyGuarantee.wp_bind (wp_tx_defaults hF hfund.tx fun t₂ u₂ a ho₂ htx₂ => ?_)
    have ha := hnovel.stamp ho₂
    refine RelyGuarantee.wp_bind (wp_tx_write_new hfault hF htx₂
      ((data.storable_withdrawal ha).mpr ⟨⟨hcol, hmax⟩, htexts⟩)
      (fun _ _ _ => Option.some_ne_none _) (fun t₃ r u₃ ho₃ htx₃ => ?_) fun t₃ u₃ row ho₃ _ hrow htx₃ => ?_)
    · obtain ⟨ch, hallows, -⟩ := ho₃.exec
      have hentered := hnovel.enters hallows
      refine Withdrawal.keys_new (hentered.new (.head _) rfl).1
        (hnew ho₃.inv htx₃.fact).withdrawals fun ref href x hx hxref => ?_
      cases href
      exact (hentered.new (.tail _ (.tail _ (.head _))) rfl).1
        ((mem_keys_withdrawalProviderReference ..).mpr ⟨x, hx, hxref⟩)
    cases hrow
    have hstorable {b : String × ℕ} := data.storable_writes (a := a) (b := b) hcol hmax htexts ha
    refine RelyGuarantee.wp_bind (wp_insert_new hfault hF hnovel htx₃
      (fun b hb => hstorable hb _ (.tail _ (.head _))) (fun t₄ hinv htx₄ => ?_)
      fun u₄ b hb hu₄ htx₄ => ?_)
    · exact rowKey_new_after ((hnew hinv htx₄.fact).rows _ (.tail _ (.tail _ (.head _))))
    refine RelyGuarantee.wp_bind (wp_tx_update_new hfault hF htx₄ (.head _) (.head _)
      (hstorable hb _ (.tail _ (.tail _ (.head _)))) rfl (data.result_final a b) fun u₅ hu₅ htx₅ => ?_)
    have hbefore : (Γ.discipline P config).Runs u₁ u₅ :=
      (((ho₂.runs_quiet rfl).trans (ho₃.runs_quiet rfl)).trans hu₄).trans hu₅
    exact RelyGuarantee.wp_ret (wp_commit_funded hnet hfund (.head _) hbefore htx₅
      (fun hc => congrArg Db.walletTransactions (data.db_of_commits hc)) data.row_owned
      (fun t u ht hNt hc hfunds hlock hids =>
        hgrants t u a b (hu₁.trans ht) hNt hc hfunds hlock (hids _ (.head _)))
      fun t u _ _ => hcreated t u a b)

end WithdrawalRepository

end WalletApi
