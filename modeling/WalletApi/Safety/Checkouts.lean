import WalletApi.Concurrency.Once
import WalletApi.Runs.Consults
import WalletApi.Safety.Completion

/-!
What the provider is asked to collect, and what it may confirm.

A checkout is asked for at the end of a creation: the transfer is on record then and
its credit waits in the journal. So a payment that the provider knows of has a place
where it is booked, and a completion that comes for it finds the credit, in the right
wallet and in a status that it can be completed in. All that is assumed for this is
that the provider confirms no payment it has not been asked for.
-/

namespace WalletApi

open Concurrency ReadCommitted World Policy WalletTransactionRepository

variable {P : Platform} {config : Config} {A : Call → ℕ → Cmd → Choice → World → Prop} {q : Call}
  {i : ℕ} {c : Cmd} {ch : Choice} {s t u : World} {d d' : Db} {honest : Prop}

/-! ### The checkouts on record -/

namespace Event

/-- The payment that the provider was asked for. -/
def checkout (e : Event) : Option InitiatePaymentParams :=
  match e with
  | ⟨_, .initiatePayment params, _, _⟩ => some params
  | _ => none

/-- The reference of the transfer that was stored. -/
def opens (e : Event) : Option String :=
  match e with
  | ⟨_, .write .pool (.createTransfer row), .ok _, _⟩ => some row.flutterwaveTxRef
  | _ => none

/-- What a lookup of the credits of a transfer has found. -/
def credits (e : Event) : Option (List WalletTransaction) :=
  match e with
  | ⟨_, .select .pool (.walletTransactionsByTransferId _), .ok rows, _⟩ => some rows
  | _ => none

end Event

variable (config) in
/-- The payment is that of a transfer on record, and its credit is in the journal. -/
def Db.Backs (d : Db) (params : InitiatePaymentParams) : Prop :=
  ∃ t ∈ d.transfers, ∃ u ∈ d.users, u.id = t.userId ∧
    params = TransferCreateService.paymentParams config u t ∧ d.Linked t

variable (config honest) in
structure World.CheckoutsOk (s : World) : Prop where
  backed : ∀ e ∈ s.history, ∀ params, e.checkout = some params →
    s.db.Backs config params ∧ ∃ e' ∈ s.history, e'.pid = e.pid ∧ e'.opens = some params.txRef
  stored : ∀ txRef ∈ s.history.filterMap Event.opens, ∃ t ∈ s.db.transfers, t.flutterwaveTxRef = txRef
  opened : (s.history.filterMap Event.opens).Nodup
  found : honest → ∀ e ∈ s.history, ∀ rows, e.credits = some rows →
    ∃ r ∈ rows, r.type = .credit ∧ (r.status = .pending ∨ r.status = .successful)

theorem paymentParams_congr {x y : User} {a b : Transfer} (hx : x.core = y.core)
    (ha : a.core = b.core) :
    TransferCreateService.paymentParams config x a = TransferCreateService.paymentParams config y b := by
  show TransferCreateService.paymentParams config x.core a.core =
    TransferCreateService.paymentParams config y.core b.core
  rw [hx, ha]

theorem Db.Backs.mono {params : InitiatePaymentParams} (h : d.Backs config params)
    (hg : d.Grows d') : d'.Backs config params := by
  obtain ⟨t, ht, u, hu, hid, rfl, hlinked⟩ := h
  obtain ⟨t', ht', hcore⟩ := hg.transfers t ht
  obtain ⟨u', hu', hcore'⟩ := hg.users u hu
  have huser : u'.core.id = t'.core.userId := by
    rw [hcore, hcore']
    exact hid
  exact ⟨t', ht', u', hu', huser, (paymentParams_congr hcore' hcore).symm, hlinked.mono hg hcore⟩

/-- A row is found among the credits of a transfer that one is linked to. -/
theorem credit_of_lookup {x : Transfer} {rows : List WalletTransaction} (hu : d.Unique) (hb : d.Books)
    (hx : x ∈ d.transfers) (hlinked : d.Linked x)
    (hrows : (Query.walletTransactionsByTransferId x.id).run d = rows) :
    ∃ r ∈ rows, r.type = .credit ∧ (r.status = .pending ∨ r.status = .successful) := by
  obtain ⟨r, hr, hid⟩ := hlinked
  obtain ⟨hmade, hstatus⟩ := madeFrom_of_transferId hu hb hx hr hid
  have htype : r.core.type = .credit := by
    rw [hmade]
    rfl
  exact ⟨r, (mem_walletTransactionsByTransferId hrows).mpr ⟨hr, hid⟩, htype, hstatus⟩

/-! ### One step -/

variable (config honest) in
/-- What has to be there before a command. -/
def checkoutDemand (i : ℕ) (s : World) : Cmd → Prop
  | .initiatePayment params =>
      s.db.Backs config params ∧ ∃ e ∈ s.history, e.pid = i ∧ e.opens = some params.txRef
  | .select .pool (.walletTransactionsByTransferId id) =>
      honest → ∃ t ∈ s.db.transfers, t.id = id ∧ s.db.Linked t
  | _ => True

namespace World.CheckoutsOk

theorem initial : World.initial.CheckoutsOk config honest where
  backed _ he := absurd he List.not_mem_nil
  stored _ he := absurd he List.not_mem_nil
  opened := .nil
  found _ _ he := absurd he List.not_mem_nil

theorem crash (h : s.CheckoutsOk config honest) : (World.crash i s).CheckoutsOk config honest :=
  { h with }

/-- A new reference is not that of a transfer that has been stored before. -/
theorem opened_step {r : Except Err c.Resp} (h : s.CheckoutsOk config honest)
    (hu : t.db.Unique) (he : exec P config i c ch s = some (r, t)) (took : Bool) :
    ∀ txRef, Event.opens ⟨i, c, r, took⟩ = some txRef →
      (∃ x ∈ t.db.transfers, x.flutterwaveTxRef = txRef) ∧
        txRef ∉ s.history.filterMap Event.opens := by
  intro txRef hopens
  unfold Event.opens at hopens
  split at hopens
  · rename_i pid row a took' heq
    cases heq
    cases hopens
    obtain ⟨-, hdb⟩ := write_of_exec he
    have htransfers : t.db.transfers = s.db.transfers ++ [row] := by
      rw [hdb]
      rfl
    have hnodup : (t.db.transfers.map (·.flutterwaveTxRef)).Nodup :=
      nodup_map_of_keys Key.transferFlutterwaveTxRef hu.transfers fun _ => .tail _ (.tail _ (.head _))
    refine ⟨⟨row, ?_, rfl⟩, fun hold => ?_⟩
    · rw [htransfers]
      exact List.mem_append_right _ (.head _)
    · obtain ⟨x, hx, href⟩ := h.stored _ hold
      rw [htransfers, List.map_append] at hnodup
      exact (List.nodup_append.mp hnodup).2.2 _ (List.mem_map.mpr ⟨x, hx, rfl⟩) _
        (.head _) href
  · cases hopens

theorem step {r : Except Err c.Resp} (h : s.CheckoutsOk config honest) (hs : s.db.Unique)
    (hb : s.db.Books) (hu : t.db.Unique) (he : exec P config i c ch s = some (r, t))
    (hd : checkoutDemand config honest i s c) : t.CheckoutsOk config honest := by
  have hg : s.db.Grows t.db := Stepped.grows (.inl ⟨c, ch, r, he⟩ : Stepped P config i s t)
  obtain ⟨took, hh⟩ := exec_history he
  have hnew := opened_step h hu he took
  refine ⟨?_, ?_, ?_, ?_⟩
  · intro e hmem params hcheckout
    rw [hh] at hmem ⊢
    rcases List.mem_cons.mp hmem with rfl | hold
    · unfold Event.checkout at hcheckout
      split at hcheckout
      · rename_i pid params' r' took' heq
        cases heq
        cases hcheckout
        obtain ⟨hbacks, e', he', hpid, hopens⟩ := hd
        exact ⟨hbacks.mono hg, e', .tail _ he', hpid, hopens⟩
      · cases hcheckout
    · obtain ⟨hbacks, e', he', hpid, hopens⟩ := h.backed e hold params hcheckout
      exact ⟨hbacks.mono hg, e', .tail _ he', hpid, hopens⟩
  · intro txRef hmem
    rw [hh, List.filterMap_cons] at hmem
    have hold (hmem : txRef ∈ s.history.filterMap Event.opens) :
        ∃ x ∈ t.db.transfers, x.flutterwaveTxRef = txRef := by
      obtain ⟨x, hx, href⟩ := h.stored txRef hmem
      obtain ⟨x', hx', hcore⟩ := hg.transfers x hx
      exact ⟨x', hx', (Transfer.txRef_of_core hcore).trans href⟩
    split at hmem
    · exact hold hmem
    · rename_i txRef' hopens
      rcases List.mem_cons.mp hmem with rfl | hmem
      · exact (hnew _ hopens).1
      · exact hold hmem
  · rw [hh, List.filterMap_cons]
    split
    · exact h.opened
    · rename_i txRef hopens
      exact List.nodup_cons.mpr ⟨(hnew _ hopens).2, h.opened⟩
  · intro hhonest e hmem rows hcredits
    rw [hh] at hmem
    rcases List.mem_cons.mp hmem with rfl | hold
    · unfold Event.credits at hcredits
      split at hcredits
      · rename_i pid id rows' took' heq
        cases heq
        cases hcredits
        obtain ⟨x, hx, rfl, hlinked⟩ := hd hhonest
        exact credit_of_lookup hs hb hx hlinked (select_of_exec he).symm
      · cases hcredits
    · exact h.found hhonest e hold rows hcredits

end World.CheckoutsOk

/-! ### The overlay -/

variable (P config A honest) in
/-- What is on record for the checkouts, on top of the books. -/
def checkouts : Overlay ((bookkeeping A).discipline P config) where
  Inv s := s.CheckoutsOk config honest
  Demand i c s := checkoutDemand config honest i s c
  Plain c := ∀ i s, checkoutDemand config honest i s c
  meets hc := hc _ _
  keeps hc hstep hs hu _ h := by
    obtain ⟨ch, -, he⟩ := hstep
    exact h.step hs.2.1 hs.2.2.2.1 hu.2.1 he (hc _ _)

theorem checkouts_usual (c : Cmd) (hc : c.usual = true) : (checkouts P config A honest).Plain c := by
  intro i s
  unfold checkoutDemand
  split
  · cases hc
  · cases hc
  · trivial

theorem checkouts_common (c : Cmd) (hc : c.common = true) : (checkouts P config A honest).Plain c :=
  checkouts_usual c (Cmd.usual_of_common hc)

/-! ### The request -/

/-- A thread that has stored a transfer has opened it. -/
theorem opens_of_own {Γ : Policy} {row a : Transfer}
    (h : Own Γ P config q i (.write .pool (.createTransfer row)) s t (.ok a) u) :
    ∃ e ∈ u.history, e.pid = i ∧ e.opens = some row.flutterwaveTxRef := by
  obtain ⟨took, hh⟩ := h.history
  refine ⟨⟨i, .write .pool (.createTransfer row), .ok a, took⟩, ?_, rfl, rfl⟩
  rw [hh]
  exact .head _

namespace TransferCreateService

variable {actor : JwtPayloadUser} {key : String}

/-- The checkout of a transfer is asked for when the transfer is on record. -/
theorem checkouts_open {amount : ℤ} {currency bodyHash : String} :
    Over (checkouts P config A honest) q i (open' config actor amount currency key bodyHash)
      (fun _ _ => True) s := by
  refine .bind (.lookup (checkouts_usual _ rfl) fun _ _ _ => .bind (.orThrow fun wallet _ => ?_))
  refine .bind (.lookup (checkouts_usual _ rfl) fun t u hp => .bind (.orThrow fun user hfound => ?_))
  have huser : user ∈ u.db.users ∧ user.id = actor.userId := by
    have hid := List.find?_some hfound
    rw [hp.own.db_quiet rfl]
    exact ⟨List.mem_of_find?_eq_some hfound, of_decide_eq_true hid⟩
  refine .bind (.bind (.plain (checkouts_usual _ rfl) fun _ u₁ uuid hp₁ => .ret ?_))
  refine .bind (.bind (.plain (checkouts_usual _ rfl) fun _ u₂ stamp hp₂ => ?_))
  refine .plain (checkouts_usual _ rfl) fun t₃ u₃ (transfer : Transfer) hp₃ => ?_
  obtain ⟨hrow, hdb⟩ := hp₃.own.write_eq
  have hmem : transfer ∈ u₃.db.transfers := by
    cases hrow
    rw [hdb]
    exact List.mem_append_right _ (.head _)
  have hopens : ∃ e ∈ u₃.history, e.pid = i ∧ e.opens = some transfer.flutterwaveTxRef := by
    cases hrow
    exact opens_of_own hp₃.own
  have howner : user.id = transfer.userId := by
    cases hrow
    exact huser.2
  have hpending : pendingCredit transfer key = pendingCredit transfer transfer.idempotencyKey := by
    cases hrow
    rfl
  rw [hpending]
  have hwithin : Over (checkouts P config A honest) q i (WalletLedgerService.postCreditPending
      (pendingCredit transfer transfer.idempotencyKey))
      (fun _ v => ((bookkeeping A).discipline P config).Runs u₃ v) u₃ :=
    .within (WalletLedgerService.within_postCreditPending checkouts_common
      fun _ _ => checkouts_usual _ rfl) fun _ _ hr => hr
  refine .bind ((hwithin.and (wp_postCreditPending_linked hp₃.after.1 hmem)).mono fun _ v hv => ?_)
  obtain ⟨huv, hlinked⟩ := hv
  have hdemand : ∀ t, ((bookkeeping A).discipline P config).Runs v t →
      checkoutDemand config honest i t (.initiatePayment (paymentParams config user transfer)) := by
    intro t hr
    obtain ⟨x, hx, hcore⟩ := (grows_of_runs (huv.trans hr)).transfers transfer hmem
    have hrun : ((bookkeeping A).discipline P config).Runs u t :=
      ((((hp₁.runs.trans hp₂.runs).trans hp₃.runs).trans huv).trans hr)
    obtain ⟨x', hx', hcore'⟩ := (grows_of_runs hrun).users user huser.1
    obtain ⟨e, he, hpid, href⟩ := hopens
    have hid : x'.core.id = x.core.userId := by
      rw [hcore', hcore]
      exact howner
    exact ⟨⟨x, hx, x', hx', hid, (paymentParams_congr hcore' hcore).symm,
      hlinked.mono (grows_of_runs hr) hcore⟩, e, mem_history_of_runs (huv.trans hr) e he, hpid, href⟩
  refine .bind (.command (fun t _ hr => hdemand t hr) (fun t r v' ht ho hv' _ => ?_) fun _ v' _ _ => ?_)
  · obtain ⟨ch, -, he⟩ := ho.exec
    exact ht.2.step ht.1.2.1 ht.1.2.2.2.1 hv'.2.1 he (hdemand t ho.runs)
  · refine .bind (.orThrow fun _ _ => ?_)
    exact .bind (.plain (checkouts_usual _ rfl) fun _ _ _ _ => .ret trivial)

theorem checkouts_create {dto : CreateTransferDto} :
    Over (checkouts P config A honest) q i (create P config actor dto key) (fun _ _ => True) s := by
  refine .bind (.within (AuthCredentialService.within_verifyPinOrThrow checkouts_common
    (fun _ => checkouts_usual _ rfl) fun _ _ _ => checkouts_usual _ rfl) fun _ _ _ => ?_)
  refine .bind (.within within_requireNgn fun currency _ _ => ?_)
  refine .bind (.lookup (checkouts_usual _ rfl) fun t u _ => ?_)
  cases (Query.transferByUserAndIdempotencyKey actor.userId key).run (t.view i .pool) with
  | some existing => exact .bind (.throwIf fun _ => .ret trivial)
  | none => exact checkouts_open

end TransferCreateService

/-! ### What the provider confirms -/

/-- What a verification answers if nothing goes wrong on the way. -/
def verification (P : Platform) (config : Config) (txRef : String) (ch : Choice) :
    Except Err VerifyPaymentResult :=
  if config.useMock then .ok (FlutterwaveMockAdapter.verifyByTxRef txRef)
  else FlutterwavePaymentService.verifyByTxRef P txRef ch.answer

/-- The provider has been asked for a payment with the reference. -/
def World.asked (s : World) (txRef : String) : Bool :=
  s.history.any fun e => e.checkout.any fun params => params.txRef = txRef

/-- A payment is confirmed only if the provider has been asked for it before. -/
def confirmsAsked (P : Platform) (config : Config) (c : Cmd) (ch : Choice) (s : World) : Bool :=
  match c with
  | .verifyByTxRef txRef =>
      match verification P config txRef ch with
      | .ok verified => verified.status ≠ .successful || s.asked txRef
      | .error _ => true
  | _ => true

theorem World.asked_of_confirms {txRef : String} {verified : VerifyPaymentResult}
    (he : exec P config i (.verifyByTxRef txRef) ch s = some (.ok verified, t))
    (h : confirmsAsked P config (.verifyByTxRef txRef) ch s = true)
    (hstatus : verified.status = .successful) : s.asked txRef = true := by
  have hanswer : verification P config txRef ch = .ok verified := by
    rcases exec_eq_some he with ⟨-, -, hr, -⟩ | ⟨r', s', hp, hr | ⟨-, -, hr⟩, -⟩
    · cases hr
    · subst hr
      unfold verification
      simp only [perform] at hp
      split at hp
      · rename_i hmock
        rw [if_pos hmock]
        exact (Prod.ext_iff.mp (Option.some.inj hp)).1
      · rename_i hlive
        rw [if_neg hlive]
        exact (Prod.ext_iff.mp (Option.some.inj hp)).1
    · cases hr
  simp only [confirmsAsked, hanswer] at h
  rcases Bool.or_eq_true_iff.mp h with hne | hasked
  · exact absurd hstatus (of_decide_eq_true hne)
  · exact hasked

/-- The transfer of a payment that is confirmed is backed. -/
theorem World.CheckoutsOk.linked_of_asked (h : s.CheckoutsOk config honest) (hu : s.db.Unique)
    {x : Transfer} (hx : x ∈ s.db.transfers) (hasked : s.asked x.flutterwaveTxRef = true) :
    s.db.Linked x := by
  obtain ⟨e, he, hparams⟩ := List.any_eq_true.mp hasked
  obtain ⟨params, hcheckout, href⟩ := (Option.any_eq_true ..).mp hparams
  obtain ⟨⟨y, hy, z, -, -, rfl, hlinked⟩, -⟩ := h.backed e he params hcheckout
  rw [← hu.transfer_of_txRef hy hx (of_decide_eq_true href)]
  exact hlinked

/-! ### The errors that guard the books -/

/-- The errors with which a completion finds the books out of order. -/
inductive InternalError : Err → Prop
  | pendingMissing :
      InternalError (customError.internalServerError "Pending credit journal missing for transfer")
  | notFound : InternalError WalletLedgerService.walletTransactionNotFound
  | mismatch : InternalError (customError.badRequest "Transaction wallet mismatch")
  | walletMissing (walletId : String) : InternalError (.error ("Wallet not found: " ++ walletId))
  | status (status : WalletTransactionStatus) :
      InternalError (customError.unprocessableEntity
        ("Cannot complete credit in status " ++ WalletLedgerService.statusText status))

theorem InternalError.head_message {message : String} (h : InternalError (.error message)) :
    message.toList.head? = some 'W' := by
  cases h with
  | walletMissing walletId =>
      rw [String.toList_append]
      rfl

theorem InternalError.head_unprocessable {message : String}
    (h : InternalError (.app .unprocessableEntity message)) : message.toList.head? = some 'C' := by
  cases h with
  | status status =>
      rw [String.toList_append]
      rfl

theorem InternalError.badRequest_eq {message : String} (h : InternalError (.app .badRequest message)) :
    message = "Transaction wallet mismatch" := by
  cases h
  rfl

/-- None of them is thrown, provided that the provider is honest. -/
def Expected (honest : Prop) (e : Err) : Prop := honest → ¬InternalError e

theorem expected_of_infrastructure (e : Err) (h : e.isInfrastructure = true) : Expected honest e := by
  intro _ hinternal
  cases e with
  | app code message => cases h
  | error message => cases h
  | prisma code => cases hinternal
  | network => cases hinternal

theorem expected_of_verification {e : Err} (h : VerifyError e) : Expected honest e := by
  intro _ hinternal
  cases h with
  | network => cases hinternal
  | json => exact absurd hinternal.head_message (by decide +kernel)
  | null => exact absurd hinternal.head_message (by decide +kernel)
  | status => exact absurd hinternal.head_message (by decide +kernel)

/-! ### The worker -/

namespace TransferCompleteService

variable {α : Type} {event : WebhookEvent} {transfer : Transfer} {pending : WalletTransaction}
  {verified : VerifyPaymentResult} {Q : α → World → Prop} {rest : WebhookEvent → Program α}

/-- The row that a transfer is linked to stays as the completion needs it. -/
theorem row_of_runs {r : WalletTransaction} (hs : ((bookkeeping A).discipline P config).Inv s)
    (hr : ((bookkeeping A).discipline P config).Runs s t) (htransfer : s.db.HasTransfer transfer)
    (hpending : pending ∈ s.db.walletTransactions) (hid : pending.transferId = some transfer.id)
    (hmem : r ∈ t.db.walletTransactions) (hrid : r.id = pending.id) :
    r.walletId = transfer.walletId ∧ (r.status = .pending ∨ r.status = .successful) ∧
      ∃ w ∈ t.db.wallets, w.id = r.walletId := by
  have ht : ((bookkeeping A).discipline P config).Inv t := inv_of_runs hr hs
  have hg : s.db.Grows t.db := grows_of_runs hr
  have hcore : r.core = pending.core := hg.row ht.2.1 hpending hmem hrid
  obtain ⟨x, hx, hxcore⟩ := htransfer.mono hg
  have hlink : r.core.transferId = some x.id := by
    rw [hcore, Transfer.id_of_core hxcore]
    exact hid
  obtain ⟨hmade, hstatus⟩ := madeFrom_of_transferId ht.2.1 ht.2.2.2.1 hx hmem hlink
  have hwallet : r.core.walletId = x.walletId := by
    rw [hmade]
    rfl
  have hsame : x.core.walletId = transfer.core.walletId := by rw [hxcore]
  have hrwallet : r.walletId = x.walletId := hwallet
  obtain ⟨w, hw, hwid, -⟩ := (ht.2.2.2.1.transfer x hx).wallet
  exact ⟨hrwallet.trans hsame, hstatus, w, hw, hwid.trans hrwallet.symm⟩

theorem throws_mark {id : String} {status : WebhookEventStatus}
    (h : ∀ e u, OverThrows (checkouts P config A honest) q i (rest e) Q (Expected honest) u) :
    OverThrows (checkouts P config A honest) q i (WebhookEventRepository.mark id status >>= rest) Q
      (Expected honest) s := by
  refine .bind (.bind (.command_plain expected_of_infrastructure (checkouts_usual _ rfl) rfl
    fun _ _ at' _ => ?_))
  exact .command_plain expected_of_infrastructure (checkouts_usual _ rfl) rfl fun _ u e _ => h e u

/-- The completion of a credit that is on record for the transfer. -/
theorem throws_completeCredit (hs : ((bookkeeping A).discipline P config).Inv s)
    (htransfer : s.db.HasTransfer transfer) (hpending : pending ∈ s.db.walletTransactions)
    (hid : pending.transferId = some transfer.id) :
    OverThrows (checkouts P config A honest) q i
      (WalletLedgerService.completeCreditSuccessful
        { transactionId := pending.id, expectedWalletId := transfer.walletId })
      (fun _ _ => True) (Expected honest) s := by
  refine .of_wp (WalletLedgerService.within_completeCreditSuccessful checkouts_common
    fun _ => checkouts_usual _ rfl) ?_
  refine WalletLedgerService.wp_completeCreditSuccessful_of
    (fun _ => expected_of_infrastructure _ rfl) (fun _ _ => expected_of_infrastructure _ rfl)
    ?_ ?_ ?_ ?_ (fun t u r _ hc hr _ _ hstatus => grant_completeCredit hc hr hstatus)
    fun _ _ _ => trivial
  · intro t hr hnone
    obtain ⟨r, hmem, hcore⟩ := (grows_of_runs hr).walletTransactions pending hpending
    have hrid : r.core.id = pending.core.id := by rw [hcore]
    exact absurd hrid (hnone r hmem)
  · intro t r hr hmem hrid hne
    exact absurd (row_of_runs hs hr htransfer hpending hid hmem hrid).1 hne
  · intro t r hr hmem hrid hnone
    obtain ⟨-, -, w, hw, hwid⟩ := row_of_runs hs hr htransfer hpending hid hmem hrid
    exact absurd hwid (hnone w hw)
  · intro t r hr hmem hrid hnot hne
    obtain ⟨-, hstatus | hstatus, -⟩ := row_of_runs hs hr htransfer hpending hid hmem hrid
    · exact absurd hstatus hne
    · exact absurd hstatus hnot

/-- A credit is found for a transfer that is backed. -/
theorem throws_credit (htransfer : s.db.HasTransfer transfer) (hlinked : honest → s.db.Linked transfer) :
    OverThrows (checkouts P config A honest) q i (credit event transfer) (fun _ _ => True)
      (Expected honest) s := by
  have hdemand : ∀ t, ((bookkeeping A).discipline P config).Runs s t →
      checkoutDemand config honest i t (.select .pool (.walletTransactionsByTransferId transfer.id)) := by
    intro t hr hhonest
    obtain ⟨x, hx, hcore⟩ := htransfer.mono (grows_of_runs hr)
    exact ⟨x, hx, Transfer.id_of_core hcore, (hlinked hhonest).mono (grows_of_runs hr) hcore⟩
  refine .bind (.command_demand expected_of_infrastructure rfl (fun t _ hr => hdemand t hr)
    (fun t r v ht ho hv _ => ?_) fun t u credits hp => ?_)
  · obtain ⟨ch, -, he⟩ := ho.exec
    exact ht.2.step ht.1.2.1 ht.1.2.2.2.1 hv.2.1 he (hdemand t ho.runs)
  have hcredits := hp.own.select_eq
  dsimp only
  split
  · exact .ret trivial
  · rename_i hnone
    split
    · -- Where the provider is honest, the lookup has found the credit.
      rename_i hmissing
      refine throws_mark fun _ _ => .fail fun hhonest => ?_
      obtain ⟨took, hh⟩ := hp.own.history
      obtain ⟨r, hr, htype, hstatus⟩ := hp.overlay.found hhonest
        ⟨i, .select .pool (.walletTransactionsByTransferId transfer.id), .ok credits, took⟩
        (by rw [hh]; exact .head _) credits rfl
      rcases hstatus with hstatus | hstatus
      · exact absurd (decide_eq_true ⟨htype, hstatus⟩) (List.find?_eq_none.mp hmissing r hr)
      · exact absurd (decide_eq_true ⟨htype, hstatus⟩) (List.find?_eq_none.mp hnone r hr)
    · rename_i pending hpending
      obtain ⟨hmem, hid⟩ := (mem_walletTransactionsByTransferId hcredits.symm).mp
        (List.mem_of_find?_eq_some hpending)
      rw [show t.view i .pool = u.db from (hp.own.db_quiet rfl).symm] at hmem
      exact .bind ((throws_completeCredit hp.after.1 (htransfer.mono (grows_of_runs hp.runs)) hmem
        hid).mono fun _ _ _ => .ret trivial)

theorem throws_handleVerified (htransfer : s.db.HasTransfer transfer)
    (hlinked : honest → verified.status = .successful → s.db.Linked transfer) :
    OverThrows (checkouts P config A honest) q i (handleVerified event transfer verified)
      (fun _ _ => True) (Expected honest) s := by
  show OverThrows _ q i (if _ then _ else _) _ _ _
  split
  · split
    · refine .bind (.command_plain expected_of_infrastructure (checkouts_usual _ rfl) rfl
        fun _ _ _ _ => ?_)
      exact throws_mark fun _ _ => .ret trivial
    · exact .ret trivial
  · rename_i hsuccessful
    have hlinked' : honest → s.db.Linked transfer := fun h => hlinked h (not_not.mp hsuccessful)
    show OverThrows _ q i (if _ then _ else _) _ _ _
    split
    · exact throws_mark fun _ _ => .fail fun _ hinternal =>
        absurd hinternal.head_unprocessable (by decide +kernel)
    · refine .bind ((throws_credit htransfer hlinked').mono fun _ _ _ => ?_)
      refine .bind (.command_plain expected_of_infrastructure (checkouts_usual _ rfl) rfl
        fun _ _ _ _ => ?_)
      exact throws_mark fun _ _ => .ret trivial

theorem throws_complete {ref : String}
    (hA : honest → ∀ call i c ch s, A call i c ch s → confirmsAsked P config c ch s = true) :
    OverThrows (checkouts P config A honest) q i (complete event ref) (fun _ _ => True)
      (Expected honest) s := by
  refine .bind (.lookup expected_of_infrastructure (checkouts_usual _ rfl) fun t u hp => ?_)
  have hfound : ∀ transfer, Query.run (.transferByFlutterwaveTxRef ref) (t.view i .pool) =
      some transfer → transfer ∈ u.db.transfers ∧ transfer.flutterwaveTxRef = ref := by
    intro transfer h
    have hp' := List.find?_some h
    rw [hp.own.db_quiet rfl]
    exact ⟨List.mem_of_find?_eq_some h, of_decide_eq_true hp'⟩
  generalize Query.run (.transferByFlutterwaveTxRef ref) (t.view i .pool) = found at hfound ⊢
  cases found with
  | none => exact throws_mark fun _ _ => .ret trivial
  | some transfer =>
      obtain ⟨hx, rfl⟩ := hfound transfer rfl
      show OverThrows _ q i (if _ then _ else _) _ _ _
      split
      · exact throws_mark fun _ _ => .ret trivial
      · refine .bind (.plain_of (fun _ _ => trivial) (fun he => expected_of_verification
          (verifyError_of_exec he)) fun t' v (verified : VerifyPaymentResult) hp' => ?_)
        have hthere : u.db.HasTransfer transfer := ⟨transfer, hx, rfl⟩
        refine throws_handleVerified (hthere.mono (grows_of_runs hp'.runs)) fun hhonest hstatus => ?_
        obtain ⟨ch, hallows, he⟩ := hp'.own.exec
        have hconfirms : confirmsAsked P config (.verifyByTxRef transfer.flutterwaveTxRef) ch t' = true :=
          hA hhonest _ _ _ _ _ hallows
        obtain ⟨x, hx', hcore⟩ := hthere.mono (grows_of_runs hp'.own.runs)
        rw [← Transfer.txRef_of_core hcore] at hconfirms he
        have hlinked := hp'.before.2.linked_of_asked hp'.before.1.2.1 hx'
          (asked_of_confirms he hconfirms hstatus)
        exact hlinked.mono (grows_of_runs (hp'.own.runs_self rfl)) hcore.symm

theorem throws_completeFromWebhook {webhookEventId : String}
    (hA : honest → ∀ call i c ch s, A call i c ch s → confirmsAsked P config c ch s = true) :
    OverThrows (checkouts P config A honest) q i (completeFromWebhook webhookEventId)
      (fun _ _ => True) (Expected honest) s := by
  refine .bind (.lookup expected_of_infrastructure (checkouts_usual _ rfl) fun t u _ => ?_)
  cases (Query.webhookEventById webhookEventId).run (t.view i .pool) with
  | none => exact .ret trivial
  | some event =>
      show OverThrows _ q i (if _ then _ else _) _ _ _
      split
      · exact .ret trivial
      · split
        · exact throws_mark fun _ _ => .fail fun _ hinternal =>
            absurd hinternal.badRequest_eq (by decide +kernel)
        · exact throws_complete hA

end TransferCompleteService

/-! ### The certificate -/

theorem plain_of_consults {call : Call} (hcreate : ∀ actor header dto, call ≠ .postTransfers actor header dto)
    (hcomplete : call ≠ .transferCompleteWorker) {c : Cmd} (hc : call.consults c) :
    (checkouts P config A honest).Plain c := by
  unfold Call.consults at hc
  split at hc
  · exact absurd rfl (hcreate _ _ _)
  · exact absurd rfl hcomplete
  · exact absurd rfl hcomplete
  · exact fun _ _ => trivial
  · exact fun _ _ => trivial
  · exact checkouts_usual _ hc

theorem checkouts_program {call : Call} (hcall : call.isApi = true)
    (hA : honest → ∀ call i c ch s, A call i c ch s → confirmsAsked P config c ch s = true) :
    Over (checkouts P config A honest) call i (program P config call) (fun _ _ => True) s := by
  have within (hcreate : ∀ actor header dto, call ≠ .postTransfers actor header dto)
      (hcomplete : call ≠ .transferCompleteWorker) :
      Over (checkouts P config A honest) call i (program P config call) (fun _ _ => True) s :=
    .within ((program_consults hcall).mono fun _ hc => plain_of_consults hcreate hcomplete hc)
      fun _ _ _ => trivial
  cases call with
  | postTransfers actor header dto =>
      refine .bind ?_
      cases requireIdempotencyKey header with
      | error e => exact .fail
      | ok key => exact .ret (.map TransferCreateService.checkouts_create)
  | transferCompleteWorker =>
      exact .map (.work checkouts_common fun _ _ =>
        (TransferCompleteService.throws_completeFromWebhook hA).forget)
  | _ => exact within (fun _ _ _ => nofun) nofun

variable (P config A) in
/-- Every call of the API keeps the checkouts backed, whatever the provider says. -/
theorem checkouts_certified : Certified (walletApi P config) (api P config A) World.initial
    ((checkouts P config A False).layered.comap id) (fun _ _ _ _ => True) fun _ _ _ _ => True :=
  Overlay.certified (api_certified P config A .true) .initial (fun _ h => h.crash)
    fun hcall _ => checkouts_program hcall False.elim

/-! ### Executions of the completion -/

variable (P config) in
/-- The API, together with executions of the completion that anything may start. -/
def completing : Machine where
  sig := signature
  State := World
  Choice := Choice
  Call := Call ⊕ String
  Result := Response
  program
    | .inl call => program P config call
    | .inr webhookEventId =>
        (fun _ => .done) <$> TransferCompleteService.completeFromWebhook webhookEventId
  exec := World.exec P config
  crash := World.crash

/-- The call that an execution is otherwise part of. -/
def completingRole : Call ⊕ String → Call
  | .inl call => call
  | .inr _ => .transferCompleteWorker

variable (P config) in
/-- Calls from outside and executions, in any order and with any faults, at a provider
that confirms only what it has been asked for. -/
def confirming : Machine.Assumptions (completing P config) where
  admits
    | .inl call => call.isApi = true
    | .inr _ => True
  allows _ _ c ch s := confirmsAsked P config c ch s = true

/-- The choices that such a provider leaves. -/
def honestly (P : Platform) (config : Config) (_ : Call) (_ : ℕ) (c : Cmd) (ch : Choice) (s : World) :
    Prop :=
  confirmsAsked P config c ch s = true

/-- What an execution does not throw. -/
def ThrowsExpected (call : Call ⊕ String) (e : Err) : Prop :=
  match call with
  | .inl _ => True
  | .inr _ => Expected True e

theorem completing_certified :
    Certified (completing P config) (confirming P config) World.initial
      ((checkouts P config (honestly P config) True).layered.comap completingRole)
      (fun _ _ _ _ => True) fun call _ e _ => ThrowsExpected call e := by
  have hbase : Certified (completing P config) (confirming P config) World.initial
      (((bookkeeping (honestly P config)).discipline P config).comap completingRole)
      (fun _ _ _ _ => True) fun _ _ _ _ => True := {
    initial := (api_certified P config (honestly P config) .true).initial
    covers := fun _ _ ha he => ⟨_, ha, he⟩
    crash := fun _ hs => Policy.crash_step hs
    call := fun {call i s} ha hs => by
      refine (RelyGuarantee.wp_comap _).mpr ?_
      cases call with
      | inl call =>
          have hcall : call.isApi = true := ha
          exact RelyGuarantee.wp_mono (fun _ _ _ => trivial) (fun _ _ _ => trivial) _
            ((api_certified P config (honestly P config) .true).call hcall hs)
      | inr webhookEventId =>
          exact RelyGuarantee.wp_bind TransferCompleteService.completeFromWebhook_keepsBooks }
  refine Overlay.certified hbase .initial (fun _ h => h.crash) fun {call i s} ha _ => ?_
  cases call with
  | inl call =>
      exact RelyGuarantee.wp_mono (fun _ _ h => h) (fun _ _ _ => trivial) _
        (checkouts_program ha fun _ _ _ _ _ _ h => h)
  | inr webhookEventId =>
      exact RelyGuarantee.wp_bind
        (TransferCompleteService.throws_completeFromWebhook fun _ _ _ _ _ _ h => h)

/-! ### One checkout for each request -/

/-- What happens at most once for each key happens for no key twice. -/
theorem pairwise_of_countP_le_one {α : Type} {key : α → ℕ} {p : α → Bool} {l : List α}
    (h : ∀ i, (l.countP fun a => key a = i ∧ p a) ≤ 1) :
    l.Pairwise fun a b => key a = key b → p a → p b → False := by
  induction l with
  | nil => exact .nil
  | cons a l ih =>
      refine List.pairwise_cons.mpr ⟨fun b hb hkey ha hpb => ?_, ih fun i => ?_⟩
      · have htail : 0 < l.countP fun x => key x = key a ∧ p x :=
          List.countP_pos_iff.mpr ⟨b, hb, decide_eq_true ⟨hkey.symm, hpb⟩⟩
        have hboth := h (key a)
        rw [List.countP_cons, if_pos (decide_eq_true ⟨rfl, ha⟩)] at hboth
        omega
      · have hi := h i
        rw [List.countP_cons] at hi
        omega

/-- How often the thread has asked for a payment. -/
def World.checkouts (i : ℕ) (s : World) : ℕ :=
  s.history.countP fun e => e.pid = i ∧ e.checkout.isSome

theorem Event.isSome_checkout {pid : ℕ} {c : Cmd} {r : Except Err c.Resp} {took : Bool} :
    (Event.checkout ⟨pid, c, r, took⟩).isSome = c.asksForPayment := by
  cases c with
  | _ => rfl

theorem World.checkouts_exec {r : Except Err c.Resp} {j : ℕ}
    (he : exec P config i c ch s = some (r, t)) :
    t.checkouts j = s.checkouts j + if i = j ∧ c.asksForPayment = true then 1 else 0 := by
  obtain ⟨took, hh⟩ := exec_history he
  unfold checkouts
  rw [hh, List.countP_cons]
  simp only [decide_eq_true_eq, Event.isSome_checkout]

theorem counts_checkouts : Machine.Counts (walletApi P config) Cmd.asksForPayment World.checkouts where
  step he := by
    refine (World.checkouts_exec he).trans ?_
    simp only [true_and]
  others hne he := by
    refine (World.checkouts_exec he).trans ?_
    rw [if_neg fun h => hne h.1.symm, Nat.add_zero]
  crash := rfl

theorem asksForPayment_of_usual (c : Cmd) (h : c.usual = true) : c.asksForPayment = false := by
  cases c with
  | initiatePayment params => cases h
  | _ => rfl

theorem asksForPayment_of_consults {call : Call}
    (hcreate : ∀ actor header dto, call ≠ .postTransfers actor header dto) (h : call.consults c) :
    c.asksForPayment = false := by
  unfold Call.consults at h
  split at h
  · exact absurd rfl (hcreate _ _ _)
  · rfl
  · rfl
  · rfl
  · rfl
  · exact asksForPayment_of_usual _ h

/-- A request for a transfer asks for one payment at most. -/
theorem TransferCreateService.once_create {actor : JwtPayloadUser} {dto : CreateTransferDto}
    {key : String} : (create P config actor dto key).Once Cmd.asksForPayment := by
  have hC : ∀ c : Cmd, c.common = true → c.asksForPayment = false :=
    fun c hc => asksForPayment_of_usual c (Cmd.usual_of_common hc)
  refine .after (AuthCredentialService.within_verifyPinOrThrow hC (fun _ => rfl) fun _ _ _ => rfl)
    fun _ => ?_
  refine .after within_requireNgn fun _ => .after (within_common hC rfl) fun existing => ?_
  cases existing with
  | some t => exact .of_within (.bind within_throwIf fun _ => .ret)
  | none =>
      refine .after (within_common hC rfl) fun _ => .after within_orThrow fun _ => ?_
      refine .after (within_common hC rfl) fun _ => .after within_orThrow fun _ => ?_
      refine .after (.bind (within_common hC rfl) fun _ => .ret) fun _ => ?_
      refine .after (.bind (within_common hC rfl) fun _ => .perform rfl) fun _ => ?_
      refine .after (WalletLedgerService.within_postCreditPending hC fun _ _ => rfl) fun _ => ?_
      exact .bind .perform fun _ => .bind within_orThrow fun _ => .bind (.perform rfl) fun _ => .ret

theorem once_program {call : Call} (hcall : call.isApi = true) :
    (program P config call).Once Cmd.asksForPayment := by
  have within (hcreate : ∀ actor header dto, call ≠ .postTransfers actor header dto) :
      (program P config call).Once Cmd.asksForPayment :=
    .of_within ((program_consults hcall).mono fun _ hc => asksForPayment_of_consults hcreate hc)
  cases call with
  | postTransfers actor header dto =>
      exact .after within_ofExcept fun key => .map TransferCreateService.once_create
  | _ => exact within fun _ _ _ => nofun

/-- Two checkouts in the history are of two threads. -/
theorem pairwise_checkouts {cfg : Machine.Config (walletApi P config)}
    (h : Machine.Reachable (requests P config) World.initial cfg) :
    cfg.state.history.Pairwise fun e e' =>
      e.pid = e'.pid → e.checkout.isSome → e'.checkout.isSome → False := by
  have hcount : ∀ i, cfg.state.history.countP
      (fun e => e.pid = i ∧ e.checkout.isSome) ≤ 1 :=
    fun i => h.at_most_once counts_checkouts (fun _ => rfl) (fun _ hcall => once_program hcall) i
  exact pairwise_of_countP_le_one hcount

/-! ### The results -/

section Result

open Schedule

/-- A payment that is backed has one credit, which waits or counts. -/
theorem credit_of_backs {params : InitiatePaymentParams} (hu : d.Unique) (hb : d.Books)
    (h : d.Backs config params) :
    ∃ t ∈ d.transfers, ∃ u ∈ d.users, u.id = t.userId ∧
      params = TransferCreateService.paymentParams config u t ∧
      ∃ r, d.walletTransactions.filter (fun r => r.type = .credit ∧ r.transferId = some t.id) = [r] ∧
        r.walletId = t.walletId ∧ r.amount = params.amountKobo ∧
        (r.status = .pending ∨ r.status = .successful) := by
  obtain ⟨t, ht, u, hmem, hid, rfl, hlinked⟩ := h
  obtain ⟨r, hone, hwallet, hamount, -⟩ := credit_of_linked hu hb ht hlinked
  refine ⟨t, ht, u, hmem, hid, rfl, r, hone, hwallet, hamount, ?_⟩
  have hr : r ∈ d.walletTransactions.filter
      (fun r => r.type = .credit ∧ r.transferId = some t.id) := by
    rw [hone]
    exact .head _
  obtain ⟨hmem', hlink⟩ := List.mem_filter.mp hr
  exact (madeFrom_of_transferId hu hb ht hmem' (of_decide_eq_true hlink).2).2

/-- The provider is asked for a payment only after the transfer and its credit are on
record, with exactly their data; and it is asked only once with each reference. -/
theorem checkouts_are_backed {cfg : Machine.Config (walletApi P config)}
    (h : Machine.Reachable (requests P config) World.initial cfg) :
    (∀ e ∈ cfg.state.history, ∀ params, e.checkout = some params →
      ∃ t ∈ cfg.state.db.transfers, ∃ u ∈ cfg.state.db.users, u.id = t.userId ∧
        params = TransferCreateService.paymentParams config u t ∧
        ∃ r, cfg.state.db.walletTransactions.filter
            (fun r => r.type = .credit ∧ r.transferId = some t.id) = [r] ∧
          r.walletId = t.walletId ∧ r.amount = params.amountKobo ∧
          (r.status = .pending ∨ r.status = .successful)) ∧
    ((cfg.state.history.filterMap Event.checkout).map (·.txRef)).Nodup := by
  obtain ⟨hu, hb, -⟩ := books_of_reachable h
  have hok : World.CheckoutsOk config False cfg.state := ((checkouts_certified P config _).inv h).2
  refine ⟨fun e he params hcheckout => credit_of_backs hu hb (hok.backed e he params hcheckout).1, ?_⟩
  rw [List.Nodup, List.pairwise_map, List.pairwise_filterMap]
  refine List.Pairwise.imp_of_mem ?_ (pairwise_checkouts h)
  intro e e' he he' hpid params hcheckout params' hcheckout' href
  obtain ⟨-, o, ho, hopid, hopens⟩ := hok.backed e he params hcheckout
  obtain ⟨-, o', ho', hopid', hopens'⟩ := hok.backed e' he' params' hcheckout'
  -- Both checkouts are of the transfer that one event has stored.
  have hopened : cfg.state.history.Pairwise fun a b =>
      ∀ x, a.opens = some x → ∀ y, b.opens = some y → x ≠ y :=
    List.pairwise_filterMap.mp hok.opened
  have hsame : o = o' := by
    by_contra hne
    have : Std.Symm fun a b : Event => ∀ x, a.opens = some x → ∀ y, b.opens = some y → x ≠ y :=
      ⟨fun _ _ h x hx y hy heq => h y hy x hx heq.symm⟩
    exact hopened.forall ho ho' hne _ hopens _ hopens' href
  refine hpid ?_ (by rw [hcheckout]; rfl) (by rw [hcheckout']; rfl)
  rw [← hopid, ← hopid', hsame]

theorem checkouts_are_backed_schedule :
    ∃ cfg, Machine.replayUnder (requests platform liveConfig) (.initial World.initial)
        fundedAda = some cfg ∧
      ∃ e ∈ cfg.state.history, ∃ params, e.checkout = some params ∧ params.amountKobo = 1000 ∧
        ∃ t ∈ cfg.state.db.transfers, ∃ u ∈ cfg.state.db.users, u.id = t.userId ∧
          params = TransferCreateService.paymentParams liveConfig u t := by
  have hrun : (Machine.replayUnder (requests platform liveConfig) (.initial World.initial)
      fundedAda).any fun cfg => cfg.state.history.any fun e =>
        e.checkout.any fun params => params.amountKobo = 1000 := by decide +kernel
  obtain ⟨cfg, hcfg, h⟩ := (Option.any_eq_true ..).mp hrun
  obtain ⟨e, he, h⟩ := List.any_eq_true.mp h
  obtain ⟨params, hcheckout, hamount⟩ := (Option.any_eq_true ..).mp h
  obtain ⟨t, ht, u, hu, hid, hparams, -⟩ :=
    (checkouts_are_backed (.replayUnder hcfg)).1 e he params hcheckout
  exact ⟨cfg, hcfg, e, he, params, hcheckout, of_decide_eq_true hamount, t, ht, u, hu, hid, hparams⟩

/-- At a provider that confirms only what it was asked for, a completion never finds
the books out of order, and each lookup of the credits of a transfer finds one that
waits or counts. -/
theorem completion_finds_its_credit {cfg : Machine.Config (completing P config)}
    (h : Machine.Reachable (confirming P config) World.initial cfg) :
    (∀ i webhookEventId e, cfg.threads i = some (.running (.inr webhookEventId) (.fail e)) →
      ¬InternalError e) ∧
    ∀ e ∈ World.history cfg.state, ∀ rows, e.credits = some rows →
      ∃ r ∈ rows, r.type = .credit ∧ (r.status = .pending ∨ r.status = .successful) := by
  have hinv : ((bookkeeping (honestly P config)).discipline P config).Inv cfg.state ∧
      World.CheckoutsOk config True cfg.state := completing_certified.inv h
  refine ⟨fun i webhookEventId e hth => ?_, hinv.2.found trivial⟩
  obtain ⟨-, -, -, hexpected⟩ := completing_certified.failed h hth
  exact hexpected trivial

/-- A call of the API as a part of the larger machine. -/
def alongside : Machine.Action (walletApi P config) → Machine.Action (completing P config)
  | .spawn i call => .spawn i (.inl call)
  | .step i ch => .step i ch
  | .crash i => .crash i

/-- Ada's transfer is completed by the worker, and an execution for the same event
fails to reach the database. -/
def completedTwice : List (Machine.Action (completing platform liveConfig)) :=
  fundedAda.map alongside ++ [.spawn 10 (.inr "e1"), .step 10 { fault := .failed }]

instance : DecidablePred (confirming P config).admits
  | .inl call => inferInstanceAs (Decidable (call.isApi = true))
  | .inr _ => .isTrue trivial

instance : ∀ call i c ch s, Decidable ((confirming P config).allows call i c ch s) :=
  fun _ _ c ch s => inferInstanceAs (Decidable (confirmsAsked P config c ch s = true))

/-- The error with which an execution has failed. -/
def completionError (o : Option (Machine.Thread (completing P config))) : Option (String × Err) :=
  match o with
  | some (.running (.inr webhookEventId) (.fail e)) => some (webhookEventId, e)
  | _ => none

theorem eq_of_completionError {o : Option (Machine.Thread (completing P config))}
    {webhookEventId : String} {e : Err} (h : completionError o = some (webhookEventId, e)) :
    o = some (.running (.inr webhookEventId) (.fail e)) := by
  unfold completionError at h
  split at h
  · cases h
    rfl
  · cases h

theorem completion_finds_its_credit_schedule :
    ∃ cfg, Machine.replayUnder (confirming platform liveConfig) (.initial World.initial)
        completedTwice = some cfg ∧
      (∃ e, completionError (cfg.threads 10) = some ("e1", e) ∧ ¬InternalError e) ∧
      ∃ e ∈ World.history cfg.state, ∃ rows, e.credits = some rows ∧
        ∃ r ∈ rows, r.type = .credit ∧ (r.status = .pending ∨ r.status = .successful) := by
  have hrun : (Machine.replayUnder (confirming platform liveConfig) (.initial World.initial)
      completedTwice).any fun cfg : Machine.Config (completing platform liveConfig) =>
        completionError (cfg.threads 10) = some ("e1", .network) ∧
          (World.history cfg.state).any fun e => e.credits.isSome := by decide +kernel
  obtain ⟨cfg, hcfg, h⟩ := (Option.any_eq_true ..).mp hrun
  obtain ⟨hfailed, hlookup⟩ := of_decide_eq_true h
  obtain ⟨e, he, hsome⟩ := List.any_eq_true.mp hlookup
  obtain ⟨rows, hrows⟩ := Option.isSome_iff_exists.mp hsome
  obtain ⟨hthrows, hfound⟩ := completion_finds_its_credit (.replayUnder hcfg)
  exact ⟨cfg, hcfg, ⟨_, hfailed, hthrows 10 _ _ (eq_of_completionError hfailed)⟩, e, he, rows, hrows,
    hfound e he rows hrows⟩

end Result

end WalletApi
