import WalletApi.Runs.Solo
import WalletApi.Safety.Api

/-!
What a thread has seen before it settles a transfer.

A transfer is read, or created, and later written without another look. The
exchanges of the thread tell what it was like when it was read, and what the
provider has answered in between. Whether it has changed since is another matter:
a worker whose answer is older may write later than the one that has credited the
transfer, and so may the request that has created it.
-/

namespace WalletApi

open Concurrency ReadCommitted Machine World Schedule

variable {P : Platform} {config : Config} {A : Assumptions (walletApi P config)} {q : Call}
  {i : ℕ} {tr : Trace}

/-! ### What has to come before -/

/-- The transfer that an exchange shows, by finding or by creating it. -/
def shows : Exchange signature → Option Transfer
  | ⟨.select .pool (.transferByFlutterwaveTxRef _), .ok found⟩ => found
  | ⟨.write .pool (.createTransfer _), .ok transfer⟩ => some transfer
  | _ => none

/-- The thread has seen the transfer, and it was not successful. -/
def SeenOpen (id : String) (tr : Trace) : Prop :=
  ∃ x ∈ tr, ∃ t, shows x = some t ∧ t.id = id ∧ t.status ≠ .successful

/-- The provider has confirmed the payment of the transfer that the row belongs to. -/
structure Confirmed (rowId : String) (tr : Trace) (t : Transfer) (verified : VerifyPaymentResult) :
    Prop where
  lookup : ⟨.select .pool (.transferByFlutterwaveTxRef t.flutterwaveTxRef), .ok (some t)⟩ ∈ tr
  verify : ⟨.verifyByTxRef t.flutterwaveTxRef, .ok verified⟩ ∈ tr
  status : verified.status = .successful
  amount : verified.amountKobo = some 0 ∨ verified.amountKobo = some t.amount
  currency : verified.currency = some t.currency
  row : ∃ credits : List WalletTransaction,
    ⟨.select .pool (.walletTransactionsByTransferId t.id), .ok credits⟩ ∈ tr ∧
      ∃ r ∈ credits, r.id = rowId ∧ r.transferId = some t.id

def Cmd.isVerify : Cmd → Bool
  | .verifyByTxRef _ => true
  | _ => false

/-- A status other than SUCCESSFUL is written to a transfer that has been seen in
another status, a credit is completed when its payment has been confirmed, and the
provider is asked only once. -/
def settlementDemand (tr : Trace) : Cmd → Prop
  | .write .pool (.updateTransfer id data) =>
      ∀ status, data.status = some status → status ≠ .successful → SeenOpen id tr
  | .write .tx (.updateWalletTransactionStatus id _) => ∃ t verified, Confirmed id tr t verified
  | .verifyByTxRef _ => ∀ x ∈ tr, x.cmd.isVerify = false
  | _ => True

/-- The command needs nothing to come before it. -/
def Cmd.Settled (c : Cmd) : Prop := ∀ tr, settlementDemand tr c

theorem settled_of_common (c : Cmd) (hc : c.common = true) : c.Settled := by
  intro tr
  unfold settlementDemand
  split
  · cases hc
  · cases hc
  · cases hc
  · trivial

theorem SeenOpen.of_created {row transfer : Transfer} (h : transfer.status ≠ .successful) :
    SeenOpen transfer.id (⟨.write .pool (.createTransfer row), .ok transfer⟩ :: tr) :=
  ⟨_, .head _, transfer, rfl, rfl, h⟩

theorem SeenOpen.append {id : String} (h : SeenOpen id tr) (new : Trace) :
    SeenOpen id (new ++ tr) := by
  obtain ⟨x, hx, hshows⟩ := h
  exact ⟨x, List.mem_append_right _ hx, hshows⟩

theorem Confirmed.append {rowId : String} {t : Transfer} {verified : VerifyPaymentResult}
    (h : Confirmed rowId tr t verified) (new : Trace) : Confirmed rowId (new ++ tr) t verified where
  lookup := List.mem_append_right _ h.lookup
  verify := List.mem_append_right _ h.verify
  status := h.status
  amount := h.amount
  currency := h.currency
  row := by
    obtain ⟨credits, hcredits, hrow⟩ := h.row
    exact ⟨credits, List.mem_append_right _ hcredits, hrow⟩

/-! ### The programs -/

/-- The program needs nothing to come before it, and keeps what has. -/
theorem alone_settled {α : Type} {p : Program α} (hp : p.Within Cmd.Settled)
    {Q : α → Trace → Prop} (hQ : ∀ a new, Q a (new ++ tr)) :
    Alone P config A settlementDemand q i p Q tr :=
  .within hp (fun _ _ hc => hc _) fun a new _ => hQ a new.reverse

theorem createTransfer_answer {row transfer : Transfer} {ch : Choice} {s t : World}
    (h : World.perform P config i (.write .pool (.createTransfer row)) ch s =
      some (.ok transfer, t)) : transfer = row := by
  rcases World.write_eq_some h with ⟨-, code, -, hr⟩ | ⟨row', store, -, hresult, -, hr, -⟩
  · cases hr
  · cases hr
    exact (Option.some.inj hresult).symm

theorem alone_create {actor : JwtPayloadUser} {dto : CreateTransferDto} {key : String} :
    Alone P config A settlementDemand q i (TransferCreateService.create P config actor dto key)
      (fun _ _ => True) tr := by
  have hcommon {c : Cmd} (hc : c.common = true) (tr : Trace) : settlementDemand tr c :=
    settled_of_common c hc tr
  refine .bind (alone_settled (AuthCredentialService.within_verifyPinOrThrow settled_of_common
    (fun _ _ => trivial) fun _ _ _ _ => trivial) fun _ new => ?_)
  refine .bind (alone_settled within_requireNgn fun currency new => ?_)
  refine .bind (.select (hcommon rfl _) fun d => ?_)
  cases Query.run (.transferByUserAndIdempotencyKey actor.userId key) d with
  | some existing => exact .bind (.throwIf fun _ => .ret trivial)
  | none =>
      refine .bind (.select (hcommon rfl _) fun _ => .bind (.orThrow fun wallet _ => ?_))
      refine .bind (.select (hcommon rfl _) fun _ => .bind (.orThrow fun user _ => ?_))
      refine .bind (.bind (.command (hcommon rfl _) fun _ _ _ uuid _ _ => .ret ?_))
      refine .bind (.bind (.command (hcommon rfl _) fun _ _ _ stamp _ _ => ?_))
      refine .command trivial fun _ _ _ (transfer : Transfer) _ hp => ?_
      have hopen : transfer.status ≠ .successful := by
        rw [createTransfer_answer hp]
        nofun
      refine .bind (alone_settled (WalletLedgerService.within_postCreditPending settled_of_common
        fun _ _ _ => trivial) fun _ new => ?_)
      refine .bind (.command (trivial) fun _ _ _ payment _ _ => .bind (.orThrow fun _ _ => ?_))
      refine .bind (.command ?_ fun _ _ _ updated _ _ => .ret trivial)
      exact fun _ _ _ => (SeenOpen.of_created hopen).append (_ :: new)

theorem find?_row {d : Db} {id : String} {r : WalletTransaction}
    (h : (Query.walletTransactionById id).run d = some r) : r.id = id := by
  have hp := List.find?_some h
  exact of_decide_eq_true hp

theorem alone_completeCreditSuccessful {input : CompleteCreditInput} {t : Transfer}
    {verified : VerifyPaymentResult} (h : Confirmed input.transactionId tr t verified) :
    Alone P config A settlementDemand q i (WalletLedgerService.completeCreditSuccessful input)
      (fun _ _ => True) tr := by
  have hcommon {c : Cmd} (hc : c.common = true) (tr : Trace) : settlementDemand tr c :=
    settled_of_common c hc tr
  have commit {tr : Trace} : Alone P config A settlementDemand q i (perform .commit)
      (fun _ _ => True) tr := .command (hcommon rfl _) fun _ _ _ _ _ _ => trivial
  refine .transaction (fun _ c hc => hcommon hc _) fun _ => ?_
  refine .bind (.select (hcommon rfl _) fun _ => .bind (.orThrow fun current _ => ?_))
  refine .bind (.throwIf fun _ => .bind (alone_settled
    (within_lockWalletRow (allowed_of_inner settled_of_common)) fun _ new => ?_))
  refine .bind (.select (hcommon rfl _) fun d => .bind (.orThrow fun locked hlocked => ?_))
  have hid : locked.id = input.transactionId := find?_row hlocked
  show Alone P config A _ q i (if _ then _ else _) _ _
  split
  · exact .bind (.select (hcommon rfl _) fun _ => .ret commit)
  · refine .bind (.throwIf fun _ => .bind (.command ?_ fun _ _ _ _ _ _ => ?_))
    · rw [hid]
      exact ⟨t, verified, (h.append [_, _]).append (_ :: new)⟩
    · exact .bind (.select (hcommon rfl _) fun _ => .ret commit)

theorem alone_mark {id : String} {status : WebhookEventStatus} {α : Type} {Q : α → Trace → Prop}
    {rest : WebhookEvent → Program α} (h : ∀ e new, Alone P config A settlementDemand q i (rest e) Q
      (new ++ tr)) :
    Alone P config A settlementDemand q i (WebhookEventRepository.mark id status >>= rest) Q tr :=
  .bind (alone_settled (within_mark settled_of_common fun _ _ => trivial) h)

/-- The completion of a transfer whose payment has been confirmed. -/
theorem alone_settle {event : WebhookEvent} {transfer : Transfer} {verified : VerifyPaymentResult}
    (hlookup : ⟨.select .pool (.transferByFlutterwaveTxRef transfer.flutterwaveTxRef),
      .ok (some transfer)⟩ ∈ tr)
    (hverify : ⟨.verifyByTxRef transfer.flutterwaveTxRef, .ok verified⟩ ∈ tr)
    (hstatus : verified.status = .successful) :
    Alone P config A settlementDemand q i (TransferCompleteService.settle event transfer verified)
      (fun _ _ => True) tr := by
  have hcommon {c : Cmd} (hc : c.common = true) (tr : Trace) : settlementDemand tr c :=
    settled_of_common c hc tr
  show Alone P config A _ q i (if _ then _ else _) _ _
  split
  · exact alone_mark fun _ _ => .fail
  · rename_i hok
    obtain ⟨hamount, hcurrency⟩ := not_or.mp hok
    -- After the credit the status can only become SUCCESSFUL.
    have close (tr : Trace) : Alone P config A settlementDemand q i
        (TransferRepository.update transfer.id
          { status := some .successful
            flutterwaveId := some (verified.providerTransactionId.or transfer.flutterwaveId) } >>=
          fun _ => WebhookEventRepository.markProcessed event.id >>= fun _ => pure ())
        (fun _ _ => True) tr := by
      refine .bind (.command ?_ fun _ _ _ _ _ _ => alone_mark fun _ _ => .ret trivial)
      rintro status hdata hne
      exact absurd (Option.some.inj hdata).symm hne
    refine .bind (Alone.mono (fun _ tr (_ : True) => close tr) ?_)
    refine .bind (.select (trivial) fun d => ?_)
    dsimp only
    split
    · exact .ret trivial
    · split
      · exact alone_mark fun _ _ => .fail
      · rename_i pending hpending
        have hmem := List.mem_of_find?_eq_some hpending
        have hid : pending.transferId = some transfer.id :=
          ((mem_walletTransactionsByTransferId rfl).mp hmem).2
        have hconfirmed : Confirmed pending.id
            (⟨.select .pool (.walletTransactionsByTransferId transfer.id), .ok _⟩ :: tr)
            transfer verified := {
          lookup := .tail _ hlookup
          verify := .tail _ hverify
          status := hstatus
          amount := not_not.mp hamount
          currency := not_not.mp hcurrency
          row := ⟨_, .head _, pending, hmem, rfl, hid⟩ }
        exact .bind ((alone_completeCreditSuccessful hconfirmed).mono fun _ _ _ => .ret trivial)

theorem alone_complete {event : WebhookEvent} {txRef : String}
    (hno : ∀ x ∈ tr, x.cmd.isVerify = false) :
    Alone P config A settlementDemand q i (TransferCompleteService.complete event txRef)
      (fun _ _ => True) tr := by
  refine .bind (.select (settled_of_common _ rfl _) fun d => ?_)
  cases hfound : Query.run (.transferByFlutterwaveTxRef txRef) d with
  | none => exact alone_mark fun _ _ => .ret trivial
  | some transfer =>
      have href : transfer.flutterwaveTxRef = txRef := by
        have hp := List.find?_some hfound
        exact of_decide_eq_true hp
      subst href
      show Alone P config A _ q i (if _ then _ else _) _ _
      split
      · exact alone_mark fun _ _ => .ret trivial
      · rename_i hopen
        refine .bind (.command ?_ fun _ _ _ (verified : VerifyPaymentResult) _ _ => ?_)
        · intro x hx
          rcases List.mem_cons.mp hx with rfl | hold
          · rfl
          · exact hno x hold
        · show Alone P config A _ q i (if _ then _ else _) _ _
          split
          · split
            · refine .bind (.command ?_ fun _ _ _ _ _ _ => alone_mark fun _ _ => .ret trivial)
              intro _ _ _
              exact ⟨_, .tail _ (.head _), transfer, rfl, rfl, hopen⟩
            · exact .ret trivial
          · rename_i hstatus
            exact alone_settle (.tail _ (.head _)) (.head _) (not_not.mp hstatus)

theorem alone_completeFromWebhook {webhookEventId : String}
    (hno : ∀ x ∈ tr, x.cmd.isVerify = false) :
    Alone P config A settlementDemand q i
      (TransferCompleteService.completeFromWebhook webhookEventId) (fun _ _ => True) tr := by
  refine .bind (.select (settled_of_common _ rfl _) fun d => ?_)
  cases Query.run (.webhookEventById webhookEventId) d with
  | none => exact .ret trivial
  | some event =>
      show Alone P config A _ q i (if _ then _ else _) _ _
      split
      · exact .ret trivial
      · split
        · exact alone_mark fun _ _ => .fail
        · refine alone_complete fun x hx => ?_
          rcases List.mem_cons.mp hx with rfl | hold
          · rfl
          · exact hno x hold

/-- The calls that settle transfers. -/
def Call.settles : Call → Bool
  | postTransfers .. | transferCompleteWorker => true
  | _ => false

theorem settled_of_footprint {call : Call} (hcall : call.settles = false) {c : Cmd}
    (hc : call.footprint c) : c.Settled := by
  intro tr
  unfold settlementDemand
  split
  · cases call <;> first | exact hc.elim | cases hcall
  · cases call <;> first | exact hc.elim | cases hcall
  · cases (show call = _ from hc)
    cases hcall
  · trivial

theorem settlement_justified (hA : ∀ call, A.admits call → Call.isApi call = true) :
    Justified P config A (fun _ => settlementDemand) fun _ _ _ => True := by
  intro call i hcall
  cases hsettles : call.settles with
  | false =>
      have hwithin : (program P config call).Within call.footprint := program_within (hA call hcall)
      exact .within hwithin (fun c new hc => settled_of_footprint hsettles hc _) fun _ _ _ => trivial
  | true =>
      cases call with
      | postTransfers actor header dto =>
          refine .bind ?_
          cases requireIdempotencyKey header with
          | error e => exact .fail
          | ok key => exact .ret (.map alone_create)
      | transferCompleteWorker =>
          refine .map (.work (fun tr c hc => settled_of_common c hc tr) fun job => ?_)
          refine alone_completeFromWebhook fun x hx => ?_
          cases List.mem_singleton.mp hx
          rfl
      | _ => cases hsettles

/-! ### The statuses that are written -/

variable {cfg cfg' : Machine.Config (walletApi P config)} {A : Call → ℕ → Cmd → Choice → World → Prop}

/-- The status that the event has given to the transfer. -/
def Event.transferStatus (id : String) (e : Event) : Option TransferStatus :=
  match e.cmd with
  | .write .pool (.updateTransfer id' data) => if e.took ∧ id' = id then data.status else none
  | _ => none

/-- One event changes no status but the one that it writes. -/
theorem transferStatus_of_happened {e : Event} (h : Happened (api P config A) e cfg cfg')
    {t : Transfer} (ht : t ∈ (World.db cfg.state).transfers) :
    ∃ t' ∈ (World.db cfg'.state).transfers, t'.core = t.core ∧
      (t'.status = t.status ∨ e.transferStatus t.id = some t'.status) := by
  obtain ⟨call, ch, -, he⟩ := h.exec
  rcases World.exec_db he with heq | ⟨w, hcmd, heq, hh⟩ | ⟨-, ws, hopen, heq⟩
  · exact ⟨t, heq ▸ ht, rfl, .inl rfl⟩
  · have htook : e.took = true :=
      congrArg Event.took (List.cons.inj (h.history.symm.trans hh)).1
    rcases w.transfer_apply ht with hsame | ⟨data, rfl, hupdated⟩
    · exact ⟨t, heq ▸ hsame, rfl, .inl rfl⟩
    · refine ⟨t.patch data, heq ▸ hupdated, rfl, ?_⟩
      have hwritten : e.transferStatus t.id = data.status := by
        simp only [Event.transferStatus, hcmd, htook, and_self, if_true]
      rw [hwritten]
      show data.status.getD t.status = _ ∨ _ = some (data.status.getD t.status)
      cases data.status with
      | none => exact .inl rfl
      | some status => exact .inr rfl
  · refine ⟨t, ?_, rfl, .inl rfl⟩
    rw [heq, transfers_of_commit (fun _ h => h) h.before hopen]
    exact ht

/-- What has changed the status of a transfer since some moment of the run. -/
theorem transferStatus_of_run (h : Reachable (api P config A) World.initial cfg)
    (hrun : Run (api P config A) cfg cfg') :
    ∃ es, World.history cfg'.state = es ++ World.history cfg.state ∧
      ∀ t ∈ (World.db cfg.state).transfers, ∃ t' ∈ (World.db cfg'.state).transfers,
        t'.core = t.core ∧
          (t'.status = t.status ∨ ∃ e ∈ es, e.transferStatus t.id = some t'.status) := by
  induction hrun with
  | refl => exact ⟨[], rfl, fun t ht => ⟨t, ht, rfl, .inl rfl⟩⟩
  | @tail mid last hmid hlast ih =>
      obtain ⟨es, hes, hstatus⟩ := ih
      obtain ⟨a, hp, hn⟩ := hlast
      cases a with
      | spawn i call =>
          obtain ⟨-, rfl⟩ := next_spawn_iff.mp hn
          exact ⟨es, hes, hstatus⟩
      | crash i =>
          obtain ⟨call, p, -, rfl⟩ := next_crash_iff.mp hn
          exact ⟨es, hes, hstatus⟩
      | step i ch =>
          obtain ⟨e, -, hhappened⟩ := Happened.of_step (h.run hmid) hp hn
          refine ⟨e :: es, by rw [hhappened.history, hes, List.cons_append], fun t ht => ?_⟩
          obtain ⟨t₁, ht₁, hcore₁, hwritten₁⟩ := hstatus t ht
          obtain ⟨t₂, ht₂, hcore₂, hwritten₂⟩ := transferStatus_of_happened hhappened ht₁
          refine ⟨t₂, ht₂, hcore₂.trans hcore₁, ?_⟩
          have hid : t₁.core.id = t.core.id := by rw [hcore₁]
          have hid' : t₁.id = t.id := hid
          rcases hwritten₂ with hsame | hwrote
          · rw [hsame]
            exact hwritten₁.imp_right fun ⟨e', he', hwrote⟩ => ⟨e', .tail _ he', hwrote⟩
          · exact .inr ⟨e, .head _, hid' ▸ hwrote⟩

/-! ### The runs without the race -/

/-- The events, newest first, that are later than some event with the property. -/
def laterThan (p : Event → Bool) : List Event → List Event
  | [] => []
  | e :: es => if es.any p then e :: laterThan p es else []

theorem mem_laterThan {p : Event → Bool} {es h : List Event} {e₀ e : Event} (hp : p e₀ = true)
    (he : e ∈ es) : e ∈ laterThan p (es ++ e₀ :: h) := by
  induction es with
  | nil => exact absurd he List.not_mem_nil
  | cons e' es ih =>
      have hany : (es ++ e₀ :: h).any p = true :=
        List.any_eq_true.mpr ⟨e₀, List.mem_append_right _ (.head _), hp⟩
      rw [List.cons_append, laterThan, if_pos hany]
      rcases List.mem_cons.mp he with rfl | hrest
      · exact .head _
      · exact .tail _ (ih hrest)

/-- The event has shown the transfer to the thread. -/
def Event.showsTo (i : ℕ) (id : String) (e : Event) : Bool :=
  decide (e.pid = i) && (shows e.exchange).any fun t => t.id = id

/-- The transfer has not become successful since the thread has seen it. -/
def seenInTime (i : ℕ) (id : String) (s : World) : Bool :=
  (laterThan (·.showsTo i id) s.history).all fun e => e.transferStatus id ≠ some .successful

/-- A status other than SUCCESSFUL is written in time. -/
def updatesInTime (i : ℕ) (c : Cmd) (ch : Choice) (s : World) : Bool :=
  match c with
  | .write .pool (.updateTransfer id data) =>
      match data.status with
      | some status =>
          decide (ch.fault = .failed) || decide (status = .successful) || seenInTime i id s
      | none => true
  | _ => true

/-- The runs in which no status is written that a later one has overtaken. -/
def UpToDate (_ : Call) (i : ℕ) (c : Cmd) (ch : Choice) (s : World) : Prop :=
  updatesInTime i c ch s = true

instance : ∀ call i c ch s, Decidable (UpToDate call i c ch s) :=
  fun _ i c ch s => inferInstanceAs (Decidable (updatesInTime i c ch s = true))

theorem shows_eq_some {x : Exchange signature} {t : Transfer} (h : shows x = some t) :
    (∃ txRef, x = ⟨.select .pool (.transferByFlutterwaveTxRef txRef), .ok (some t)⟩) ∨
      ∃ row, x = ⟨.write .pool (.createTransfer row), .ok t⟩ := by
  revert h
  fun_cases shows x with
  | case1 txRef found =>
      intro h
      have hfound : found = some t := h
      exact .inl ⟨txRef, by rw [hfound]⟩
  | case2 row transfer =>
      intro h
      have htransfer : transfer = t := Option.some.inj h
      exact .inr ⟨row, by rw [htransfer]⟩
  | case3 => exact nofun

/-- What an event shows is there. -/
theorem mem_of_shows {e : Event} (h : Happened (api P config A) e cfg cfg') {t : Transfer}
    (hshows : shows e.exchange = some t) : t ∈ (World.db cfg'.state).transfers := by
  obtain ⟨call, ch, -, he⟩ := h.exec
  obtain ⟨pid, c, r, took⟩ := e
  rcases shows_eq_some hshows with ⟨txRef, hexchange⟩ | ⟨row, hexchange⟩
  · cases hexchange
    rcases World.exec_eq_some he with ⟨-, -, hr, -⟩ | ⟨r', s', hp, hr | ⟨-, -, hr⟩, ht⟩
    · cases hr
    · subst hr
      obtain ⟨hfound, rfl⟩ := Prod.ext_iff.mp (Option.some.inj hp)
      rw [ht]
      exact List.mem_of_find?_eq_some (Except.ok.inj hfound)
    · cases hr
  · cases hexchange
    rcases World.exec_eq_some he with ⟨-, -, hr, -⟩ | ⟨r', s', hp, hr | ⟨-, -, hr⟩, ht⟩
    · cases hr
    · subst hr
      rw [createTransfer_answer hp, ht]
      rcases World.write_eq_some hp with ⟨-, code, -, hr⟩ | ⟨row', store, -, -, hstage, -, rfl⟩
      · cases hr
      · obtain ⟨-, -, rfl⟩ := Store.write_eq_done hstage
        exact List.mem_append_right _ (.head _)
    · cases hr

/-- A thread that has seen the transfer in another status has been overtaken if the
transfer is successful by now. -/
theorem SeenOpen.overtaken (h : Reachable (api P config A) World.initial cfg) {id : String}
    (hseen : SeenOpen id (own i (World.log cfg.state))) {t : Transfer}
    (ht : t ∈ (World.db cfg.state).transfers) (hid : t.id = id) (hs : t.status = .successful) :
    seenInTime i id cfg.state = false := by
  obtain ⟨x, hx, t₀, hshows, hid₀, hopen⟩ := hseen
  obtain ⟨e₀, he₀, hexchange⟩ := List.mem_map.mp (mem_own.mp hx)
  cases hexchange
  obtain ⟨es, hs', hhistory⟩ := List.append_of_mem he₀
  obtain ⟨cfg₀, cfg₁, hhappened, hrun, rfl⟩ := happened_of_reachable h hhistory
  obtain ⟨es', hes', hstatus⟩ := transferStatus_of_run hhappened.after hrun
  -- What happened since is what the status has been tracked over.
  have hes : es' = es := by
    rw [hhappened.history] at hes'
    exact List.append_cancel_right (hes'.symm.trans hhistory)
  subst hes
  obtain ⟨t', ht', hcore, hwritten⟩ := hstatus t₀ (mem_of_shows hhappened hshows)
  have hu : Db.Unique (World.db cfg.state) := ((api_certified P config A .true).inv h).2.1
  have hid' : t'.core.id = t₀.core.id := by rw [hcore]
  have hid'' : t'.id = t₀.id := hid'
  cases hu.transfer_ext ht' ht (hid''.trans (hid₀.trans hid.symm))
  rcases hwritten with hsame | ⟨e, he, hwrote⟩
  · exact absurd (hsame.symm.trans hs) hopen
  · refine List.all_eq_false.mpr ⟨e, ?_, ?_⟩
    · show e ∈ laterThan _ (World.history cfg.state)
      rw [hhistory]
      refine mem_laterThan ?_ he
      simp only [Event.showsTo, hshows, Option.any_some, decide_true, Bool.true_and, hid₀]
    · rw [← hid₀, hwrote, hs]
      simp

theorem transferStatus_eq_some {e : Event} {id : String} {status : TransferStatus}
    (h : e.transferStatus id = some status) : ∃ data, e.cmd = .write .pool (.updateTransfer id data) ∧
      e.took = true ∧ data.status = some status := by
  unfold Event.transferStatus at h
  split at h
  · rename_i id' data hcmd
    split at h
    · rename_i htook
      obtain ⟨htook, rfl⟩ := htook
      exact ⟨data, hcmd, htook, h⟩
    · cases h
  · cases h

/-- An event that is up to date leaves a successful transfer successful. -/
theorem successful_of_happened {e : Event} (h : Happened (api P config UpToDate) e cfg cfg')
    {t : Transfer} (ht : t ∈ (World.db cfg.state).transfers) (hs : t.status = .successful) :
    ∃ t' ∈ (World.db cfg'.state).transfers, t'.core = t.core ∧ t'.status = .successful := by
  obtain ⟨t', ht', hcore, hstatus⟩ := transferStatus_of_happened h ht
  refine ⟨t', ht', hcore, ?_⟩
  rcases hstatus with hsame | hwrote
  · exact hsame.trans hs
  by_contra hne
  -- Whoever writes another status has seen the transfer, and has been overtaken.
  obtain ⟨data, hcmd, htook, hdata⟩ := transferStatus_eq_some hwrote
  obtain ⟨call, k, ch, hth, hallows, he, -⟩ := h.step
  have hdemand : settlementDemand (own e.pid (World.log cfg.state)) e.cmd :=
    (followed_of_reachable (settlement_justified fun _ h => h) h.before).demand hth
  rw [hcmd] at hdemand
  have hlate : seenInTime e.pid t.id cfg.state = false :=
    (hdemand t'.status hdata hne).overtaken h.before ht rfl hs
  have hfault : ch.fault ≠ .failed := by
    obtain ⟨pid, c, r, took⟩ := e
    cases hcmd
    cases htook
    exact World.fault_of_took he h.history rfl
  have htime : updatesInTime e.pid e.cmd ch cfg.state = true := hallows
  simp only [updatesInTime, hcmd, hdata, hfault, hne, hlate, decide_false, Bool.or_self] at htime
  cases htime

/-- The transfers that are successful stay successful. -/
def StaysSuccessful (d d' : Db) : Prop :=
  ∀ t ∈ d.transfers, t.status = .successful → ∀ t' ∈ d'.transfers, t'.id = t.id →
    t'.status = .successful

/-- As long as no status is written by a thread that has been overtaken since it has
seen the transfer, a transfer that is successful stays successful. -/
theorem staysSuccessful (h : Reachable (api P config UpToDate) World.initial cfg)
    (hrun : Run (api P config UpToDate) cfg cfg') :
    StaysSuccessful cfg.state.db cfg'.state.db := by
  intro t ht hs t' ht' hid
  have hkept : ∃ t'' ∈ (World.db cfg'.state).transfers, t''.core = t.core ∧
      t''.status = .successful := by
    clear ht' hid
    induction hrun with
    | refl => exact ⟨t, ht, rfl, hs⟩
    | tail hmid hlast ih =>
        obtain ⟨t₁, ht₁, hcore₁, hs₁⟩ := ih
        obtain ⟨a, hp, hn⟩ := hlast
        cases a with
        | spawn i call =>
            obtain ⟨-, rfl⟩ := next_spawn_iff.mp hn
            exact ⟨t₁, ht₁, hcore₁, hs₁⟩
        | crash i =>
            obtain ⟨call, p, -, rfl⟩ := next_crash_iff.mp hn
            exact ⟨t₁, ht₁, hcore₁, hs₁⟩
        | step i ch =>
            obtain ⟨e, -, hhappened⟩ := Happened.of_step (h.run hmid) hp hn
            obtain ⟨t₂, ht₂, hcore₂, hs₂⟩ := successful_of_happened hhappened ht₁ hs₁
            exact ⟨t₂, ht₂, hcore₂.trans hcore₁, hs₂⟩
  obtain ⟨t'', ht'', hcore, hs''⟩ := hkept
  have hu : Db.Unique (World.db cfg'.state) :=
    ((api_certified P config UpToDate .true).inv (h.run hrun)).2.1
  have hid' : t''.core.id = t.core.id := by rw [hcore]
  have hid'' : t''.id = t.id := hid'
  rw [hu.transfer_ext ht' ht'' (hid.trans hid''.symm)]
  exact hs''

/-! ### Two runs -/

/-- The provider has reported one payment twice, under two ids. -/
def reportedTwice : List (Action (walletApi platform liveConfig)) :=
  register 0 "ada" "u1" "w1" ++ createPin 1 "u1" ++ postTransfer 2 "u1" ++
    webhook 3 "u1" "1" "e1" ++ webhook 4 "u1" "2" "e2"

/-- A worker asks for the payment and is told that it has failed. -/
def learnFailure (i : ℕ) (storedId : String) : List (Action (walletApi platform liveConfig)) :=
  .spawn i .transferCompleteWorker :: generate i ["transfer-complete-" ++ storedId] ++ calm i 2 ++
    steps i [reports "failed"]

theorem staysSuccessful_schedule :
    ∃ cfg cfg', Run (api platform liveConfig UpToDate) cfg cfg' ∧
      (∃ t ∈ cfg.state.db.transfers, t.status = .successful) ∧
      StaysSuccessful cfg.state.db cfg'.state.db := by
  have hrun : (Machine.replayUnder (api platform liveConfig UpToDate) (.initial World.initial)
      (reportedTwice ++ completeTransfer 5 "e1")).any fun cfg =>
        (∃ t ∈ cfg.state.db.transfers, t.status = .successful) ∧
          (Machine.replayUnder (api platform liveConfig UpToDate) cfg
            (.spawn 6 .transferCompleteWorker :: generate 6 ["transfer-complete-e2"] ++
              calm 6 2)).isSome := by decide +kernel
  obtain ⟨cfg, hcfg, h⟩ := (Option.any_eq_true ..).mp hrun
  obtain ⟨hs, hsome⟩ := of_decide_eq_true h
  obtain ⟨cfg', hcfg'⟩ := Option.isSome_iff_exists.mp hsome
  exact ⟨cfg, cfg', .replayUnder hcfg', hs,
    staysSuccessful (.replayUnder hcfg) (.replayUnder hcfg')⟩

/-- A worker with an older answer fails the transfer that another one has credited. -/
theorem overtaken_worker_fails_transfer :
    ∃ cfg cfg', Machine.replayUnder (requests platform liveConfig) (.initial World.initial)
        (reportedTwice ++ learnFailure 5 "e2" ++ completeTransfer 6 "e1") = some cfg ∧
      Machine.replayUnder (requests platform liveConfig) cfg (calm 5 1) = some cfg' ∧
      ¬ StaysSuccessful cfg.state.db cfg'.state.db := by
  have hrun : (Machine.replayUnder (requests platform liveConfig) (.initial World.initial)
      (reportedTwice ++ learnFailure 5 "e2" ++ completeTransfer 6 "e1")).any fun cfg =>
        (Machine.replayUnder (requests platform liveConfig) cfg (calm 5 1)).any fun cfg' =>
          ∃ t ∈ cfg.state.db.transfers, ∃ t' ∈ cfg'.state.db.transfers,
            t.status = .successful ∧ t'.id = t.id ∧ t'.status = .failed := by decide +kernel
  obtain ⟨cfg, hcfg, h⟩ := (Option.any_eq_true ..).mp hrun
  obtain ⟨cfg', hcfg', h'⟩ := (Option.any_eq_true ..).mp h
  obtain ⟨t, ht, t', ht', hs, hid, hs'⟩ := of_decide_eq_true h'
  refine ⟨cfg, cfg', hcfg, hcfg', fun hstays => ?_⟩
  have hsame := hstays t ht hs t' ht' hid
  rw [hs'] at hsame
  cases hsame

end WalletApi
