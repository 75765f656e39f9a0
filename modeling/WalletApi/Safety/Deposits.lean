import WalletApi.Safety.Bookkeeping

/-!
The funding services keep the books.

A transfer is opened in one statement and its pending credit posted in a
transaction of its own; the worker that completes it reads the journal without a
lock and leaves the decision to the ledger. Nothing in this has to be atomic,
because the credit says by itself which transfer it belongs to.
-/

namespace WalletApi

open Concurrency ReadCommitted World Policy WalletTransactionRepository

variable {P : Platform} {config : Config} {A : Call → ℕ → Cmd → Choice → World → Prop} {q : Call}
  {i : ℕ} {s t u : World} {α : Type}

/-- The program keeps the books, whatever it returns or throws. -/
def KeepsBooks (P : Platform) (config : Config) (A : Call → ℕ → Cmd → Choice → World → Prop)
    (q : Call) (i : ℕ) (p : Program α) (s : World) : Prop :=
  ((bookkeeping A).discipline P config).wp q i p (fun _ _ => True) (fun _ _ => True) s

/-! ### Grants -/

/-- A statement that changes neither the journal nor the withdrawals. -/
theorem grant_aside {w : Write} (h : Wrote P config (bookkeeping A) q i w t u)
    (he : t.db.Effect (w.apply t.db)) (hw : (w.apply t.db).withdrawals = t.db.withdrawals)
    (hr : (w.apply t.db).walletTransactions = t.db.walletTransactions) :
    (bookkeeping A).Inv u ∧ (bookkeeping A).Guar i t u := by
  obtain ⟨r, hh⟩ := h.history
  refine grant_same h.inv.2.2 h.unique (h.db ▸ he) hh rfl (h.db ▸ hw) fun r hr' _ => ?_
  rw [h.db, hr] at hr'
  exact hr'

theorem grant_pendingCredit {transfer : Transfer} {stamp : String × ℕ}
    (hs : transfer ∈ s.db.transfers)
    (hst : ((bookkeeping A).discipline P config).Runs s t)
    (hc : Commits P config (bookkeeping A) q i
      [.createWalletTransaction (transfer.creditData.row stamp.1 stamp.2)] t u) :
    (bookkeeping A).Inv u ∧ (bookkeeping A).Guar i t u := by
  obtain ⟨r, hh⟩ := hc.history
  obtain ⟨transfer', hmem, hcore⟩ := (grows_of_runs hst).transfers transfer hs
  have he : t.db.Effect u.db := by
    rw [hc.db, ← Transfer.creditData_congr hcore]
    exact .pendingCredit transfer' hmem stamp
  refine grant_same hc.inv.2.2 hc.unique he hh rfl (by rw [hc.db]; rfl) fun r hr hp => ?_
  rw [hc.db] at hr
  rcases List.mem_append.mp hr with hold | hnew
  · exact hold
  · rw [List.mem_singleton.mp hnew] at hp
    cases hp

/-- A row that waits is the credit of a transfer. -/
theorem WalletTransaction.Origin.purpose_of_pending {d : Db} {r : WalletTransaction}
    (h : r.Origin d) (hs : r.status = .pending) : r.purpose = .flutterwaveFunding := by
  cases h with
  | funding t _ hr _ =>
      show r.core.purpose = _
      rw [hr]
      rfl
  | debit w _ hr => cases hs.symm.trans (hr.status.trans w.debitData_status)
  | credit w _ _ hr => cases hs.symm.trans hr.status
  | reversal w _ _ hr => cases hs.symm.trans hr.status

theorem grant_completeCredit {row : WalletTransaction}
    (hc : Commits P config (bookkeeping A) q i
      [.updateWalletTransactionStatus row.id .successful] t u)
    (hrow : row ∈ t.db.walletTransactions) (hs : row.status = .pending) :
    (bookkeeping A).Inv u ∧ (bookkeeping A).Guar i t u := by
  obtain ⟨r, hh⟩ := hc.history
  have hinv : (bookkeeping A).Inv t := hc.inv.2.2
  have he : t.db.Effect u.db := by
    rw [hc.db]
    exact .completeCredit row hrow hs
  refine grant_same hinv hc.unique he hh rfl (by rw [hc.db]; rfl) fun r hr hp => ?_
  rw [hc.db] at hr
  obtain ⟨x, hx, rfl⟩ := List.mem_map.mp hr
  split at hp
  · rename_i hid
    have hfunding := (hinv.2.1.origin row hrow).purpose_of_pending hs
    rw [← hinv.1.row_ext hx hrow hid] at hfunding
    cases hp.symm.trans hfunding
  · rename_i hne
    rw [if_neg hne]
    exact hx

/-! ### Opening a transfer -/

namespace TransferCreateService

theorem find?_wallet {d : Db} {userId : String} {wallet : Wallet}
    (h : (Query.walletByUserId userId).run d = some wallet) :
    wallet ∈ d.wallets ∧ wallet.userId = userId := by
  have hp := List.find?_some h
  exact ⟨List.mem_of_find?_eq_some h, of_decide_eq_true hp⟩

theorem open_keepsBooks {actor : JwtPayloadUser} {amount : ℤ} {currency key bodyHash : String}
    (hamount : 0 < amount) (hkey : isUuid4 key = true) :
    KeepsBooks P config A q i (open' config actor amount currency key bodyHash) s := by
  have hnet : ∀ u : World, (bookkeeping A).Faulty → True := fun _ _ => trivial
  refine RelyGuarantee.wp_bind (wp_select hnet fun t₁ u₁ ho₁ => ?_)
  refine RelyGuarantee.wp_bind (wp_orThrow (fun _ => trivial) fun wallet hwallet => ?_)
  obtain ⟨hwmem, hwuser⟩ := find?_wallet hwallet
  rw [← ho₁.db_quiet rfl] at hwmem
  refine RelyGuarantee.wp_bind (wp_select hnet fun t₂ u₂ ho₂ => ?_)
  refine RelyGuarantee.wp_bind (wp_orThrow (fun _ => trivial) fun user _ => ?_)
  refine RelyGuarantee.wp_bind (RelyGuarantee.wp_bind (wp_local rfl rfl fun _ u₃ _ ho₃ =>
    RelyGuarantee.wp_ret ?_))
  refine RelyGuarantee.wp_bind (RelyGuarantee.wp_bind (wp_local rfl rfl fun _ u₄ _ ho₄ => ?_))
  have hu₄ := ((ho₂.runs_quiet rfl).trans (ho₃.runs_quiet rfl)).trans (ho₄.runs_quiet rfl)
  refine wp_write hnet (fun _ => rfl) (fun t u ht hw => ?_)
    (fun t u (transfer : Transfer) ht hu hw hrow => ?_) fun _ _ _ _ _ => trivial
  · have hx := (grows_of_runs (hu₄.trans ht)).wallets wallet hwmem
    exact grant_aside hw (.createTransfer _ ⟨hamount, hkey, wallet, hx, rfl, hwuser⟩) rfl rfl
  have hmem : transfer ∈ u.db.transfers := by
    cases hrow
    rw [hw.db]
    exact List.mem_append_right _ (.head _)
  have hpending : pendingCredit transfer key = pendingCredit transfer transfer.idempotencyKey := by
    cases hrow
    rfl
  rw [hpending]
  refine RelyGuarantee.wp_bind (WalletLedgerService.wp_postCreditPending (.any fun _ _ => trivial)
    (fun t' u' stamp ht' hc _ => grant_pendingCredit hmem ht' hc) fun _ u' _ => ?_)
  refine RelyGuarantee.wp_bind (wp_quiet rfl (fun _ => nofun) fun _ r u₅ _ => ?_)
  cases r with
  | error e => trivial
  | ok payment =>
      refine RelyGuarantee.wp_bind (wp_orThrow (fun _ => trivial) fun _ _ => ?_)
      refine RelyGuarantee.wp_bind (wp_write hnet (fun _ => rfl) (fun t u _ hw => ?_)
        (fun _ _ _ _ _ _ _ => trivial) fun _ _ _ _ _ => trivial)
      exact grant_aside hw (.updateTransfer _ _) rfl rfl

theorem wp_requireNgn {Γ : Policy} {currency : Option String} {E : Err → World → Prop}
    {Q : String → World → Prop} (hE : ∀ m, E (customError.badRequest m) s)
    (hQ : ∀ c, c = P.toUpperCase (currency.getD "NGN") → Q c s) :
    (Γ.discipline P config).wp q i (requireNgn P currency) Q E s :=
  RelyGuarantee.wp_bind (wp_throwIf (fun _ => hE _) fun _ => RelyGuarantee.wp_ret (hQ _ rfl))

theorem create_keepsBooks {actor : JwtPayloadUser} {dto : CreateTransferDto} {key : String}
    (hkey : isUuid4 key = true) : KeepsBooks P config A q i (create P config actor dto key) s := by
  refine RelyGuarantee.wp_bind (AuthCredentialService.wp_verifyPinOrThrow grantsUsers
    (fun _ _ _ => trivial) fun u₁ _ => ?_)
  refine RelyGuarantee.wp_bind (wp_requireNgn (fun _ => trivial) fun currency _ => ?_)
  refine RelyGuarantee.wp_bind (wp_select (fun _ _ => trivial) fun t u ho => ?_)
  generalize Query.run _ t.db = existing at ho ⊢
  cases existing with
  | some transfer =>
      exact RelyGuarantee.wp_bind (wp_throwIf (fun _ => trivial) fun _ => trivial)
  | none =>
      have hamount : 0 < dto.amount := by
        have hmin := dto.amount_min
        omega
      exact open_keepsBooks hamount hkey

end TransferCreateService

/-! ### Webhook events -/

theorem createWebhookEvent_keepsBooks
    {data : WebhookEventRepository.CreateWebhookEventData} {Q : WebhookEvent → World → Prop}
    (hQ : ∀ e u, Q e u) : ((bookkeeping A).discipline P config).wp q i
      (WebhookEventRepository.create data) Q (fun _ _ => True) s := by
  refine RelyGuarantee.wp_bind (wp_local rfl rfl fun _ u _ _ => ?_)
  refine wp_write (fun _ _ => trivial) (fun _ => rfl) (fun t u _ hw => ?_)
    (fun _ _ _ _ _ _ _ => hQ _ _) fun _ _ _ _ _ => trivial
  exact grant_aside hw (.aside (fun _ hx => hx) rfl rfl rfl) rfl rfl

theorem mark_keepsBooks {id : String} {status : WebhookEventStatus}
    {Q : WebhookEvent → World → Prop} (hQ : ∀ e u, Q e u) :
    ((bookkeeping A).discipline P config).wp q i (WebhookEventRepository.mark id status) Q
      (fun _ _ => True) s := by
  refine RelyGuarantee.wp_bind (wp_local rfl rfl fun _ u _ _ => ?_)
  refine wp_write (fun _ _ => trivial) (fun _ => rfl) (fun t u _ hw => ?_)
    (fun _ _ _ _ _ _ _ => hQ _ _) fun _ _ _ _ _ => trivial
  exact grant_aside hw (.aside (fun _ hx => hx) rfl rfl rfl) rfl rfl

theorem updateTransfer_keepsBooks {id : String} {data : UpdateTransferData}
    {Q : Transfer → World → Prop} (hQ : ∀ e u, Q e u) :
    ((bookkeeping A).discipline P config).wp q i (TransferRepository.update id data) Q
      (fun _ _ => True) s := by
  refine wp_write (fun _ _ => trivial) (fun _ => rfl) (fun t u _ hw => ?_)
    (fun _ _ _ _ _ _ _ => hQ _ _) fun _ _ _ _ _ => trivial
  exact grant_aside hw (.updateTransfer _ _) rfl rfl

theorem queueAdd_keepsBooks {job : Job} {rest : Program α}
    (h : ∀ u, KeepsBooks P config A q i rest u) :
    KeepsBooks P config A q i (perform (.queueAdd job) >>= fun _ => rest) s :=
  RelyGuarantee.wp_bind (wp_queueAdd (fun _ _ => trivial) fun _ u _ => h u)

namespace TransferWebhookService

theorem handle_keepsBooks {verifHash : Option String} {body : Json} :
    KeepsBooks P config A q i (handleFlutterwaveWebhook config verifHash body) s := by
  refine RelyGuarantee.wp_bind (wp_throwIf (fun _ => trivial) fun _ => ?_)
  refine RelyGuarantee.wp_bind (wp_orThrow (fun _ => trivial) fun providerEventId _ => ?_)
  refine RelyGuarantee.wp_bind (wp_select (fun _ _ => trivial) fun t u ho => ?_)
  generalize Query.run _ t.db = existing at ho ⊢
  cases existing with
  | some event =>
      show KeepsBooks P config A q i (handleExisting event) u
      unfold handleExisting
      split
      · exact queueAdd_keepsBooks fun _ => trivial
      · trivial
  | none =>
      exact RelyGuarantee.wp_bind (createWebhookEvent_keepsBooks fun event v =>
        queueAdd_keepsBooks fun _ => trivial)

end TransferWebhookService

/-! ### Completing a transfer -/

namespace TransferCompleteService

theorem credit_keepsBooks {event : WebhookEvent} {transfer : Transfer}
    {Q : Unit → World → Prop} (hQ : ∀ u, Q () u) :
    ((bookkeeping A).discipline P config).wp q i (credit event transfer) Q (fun _ _ => True) s := by
  refine RelyGuarantee.wp_bind (wp_select (fun _ _ => trivial) fun t u ho => ?_)
  generalize Query.run _ t.db = credits at ho ⊢
  dsimp only
  split
  · exact RelyGuarantee.wp_ret (hQ u)
  · split
    · exact RelyGuarantee.wp_bind (mark_keepsBooks fun _ _ => trivial)
    · refine RelyGuarantee.wp_bind (WalletLedgerService.wp_completeCreditSuccessful
        (fun _ _ => trivial) (fun t u r _ hc hr _ _ hs => grant_completeCredit hc hr hs)
        fun _ u _ => RelyGuarantee.wp_ret (hQ u))

theorem settle_keepsBooks {event : WebhookEvent} {transfer : Transfer}
    {verified : VerifyPaymentResult} :
    KeepsBooks P config A q i (settle event transfer verified) s := by
  unfold settle
  split
  · exact RelyGuarantee.wp_bind (mark_keepsBooks fun _ _ => trivial)
  · refine RelyGuarantee.wp_bind (credit_keepsBooks fun _ => ?_)
    refine RelyGuarantee.wp_bind (updateTransfer_keepsBooks fun _ _ => ?_)
    exact RelyGuarantee.wp_bind (mark_keepsBooks fun _ _ => trivial)

theorem handleVerified_keepsBooks {event : WebhookEvent} {transfer : Transfer}
    {verified : VerifyPaymentResult} :
    KeepsBooks P config A q i (handleVerified event transfer verified) s := by
  unfold handleVerified
  split
  · split
    · refine RelyGuarantee.wp_bind (updateTransfer_keepsBooks fun _ _ => ?_)
      exact RelyGuarantee.wp_bind (mark_keepsBooks fun _ _ => trivial)
    · trivial
  · exact settle_keepsBooks

theorem complete_keepsBooks {event : WebhookEvent} {txRef : String} :
    KeepsBooks P config A q i (complete event txRef) s := by
  refine RelyGuarantee.wp_bind (wp_select (fun _ _ => trivial) fun t u ho => ?_)
  generalize Query.run _ t.db = found at ho ⊢
  cases found with
  | none => exact RelyGuarantee.wp_bind (mark_keepsBooks fun _ _ => trivial)
  | some transfer =>
      show KeepsBooks P config A q i (if Transfer.status transfer = .successful then _ else _) u
      split
      · exact RelyGuarantee.wp_bind (mark_keepsBooks fun _ _ => trivial)
      · refine RelyGuarantee.wp_bind (wp_quiet rfl (fun _ => nofun) fun _ r u _ => ?_)
        cases r with
        | error e => trivial
        | ok verified => exact handleVerified_keepsBooks

theorem completeFromWebhook_keepsBooks {webhookEventId : String} :
    KeepsBooks P config A q i (completeFromWebhook webhookEventId) s := by
  refine RelyGuarantee.wp_bind (wp_select (fun _ _ => trivial) fun t u ho => ?_)
  generalize Query.run _ t.db = found at ho ⊢
  cases found with
  | none => trivial
  | some event =>
      show KeepsBooks P config A q i (if WebhookEvent.status event = .processed then _ else _) u
      split
      · trivial
      · split
        · exact RelyGuarantee.wp_bind (mark_keepsBooks fun _ _ => trivial)
        · exact complete_keepsBooks

end TransferCompleteService

end WalletApi
