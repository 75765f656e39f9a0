import WalletApi.Runs.Overlay
import WalletApi.Safety.Funding
import WalletApi.Safety.Idempotency
import WalletApi.Safety.Settlement

/-!
What the states of a funding stand for.

A transfer, its credit and the webhook event are written one after another, by
requests and workers that may overlap or stop in between. Each write still says
something about the ones before it. A transfer becomes SUCCESSFUL when its credit
counts, an event becomes PROCESSED when its transfer has been credited or its
payment has failed, and a checkout link is stored when the credit waits for the
money. None of this is taken back, so it holds in every state, and what a state
says can be relied upon without looking at who is still at work.
-/

namespace WalletApi

open Concurrency ReadCommitted World Policy WalletTransactionRepository

variable {P : Platform} {config : Config} {A : Call → ℕ → Cmd → Choice → World → Prop} {q : Call}
  {i : ℕ} {c : Cmd} {ch : Choice} {s t u : World} {d d' : Db} {x y : Transfer}
  {e e' : WebhookEvent}

/-! ### The funding on record -/

namespace Event

/-- The reference and the status that an answered verification is about. -/
def verification (e : Event) : Option (String × VerifyStatus) :=
  match e with
  | ⟨_, .verifyByTxRef txRef, .ok verified, _⟩ => some (txRef, verified.status)
  | _ => none

/-- The checkout link of the transfer has been stored. -/
def initiates (e : Event) (id : String) : Bool :=
  match e with
  | ⟨_, .write .pool (.updateTransfer id' data), _, true⟩ =>
      decide (id' = id) && data.checkoutUrl.join.isSome
  | _ => false

end Event

/-- A row of the journal belongs to the transfer. -/
def Db.Linked (d : Db) (t : Transfer) : Prop :=
  ∃ r ∈ d.walletTransactions, r.transferId = some t.id

/-- So does one that counts. -/
def Db.Credited (d : Db) (t : Transfer) : Prop :=
  ∃ r ∈ d.walletTransactions, r.transferId = some t.id ∧ r.status = .successful

namespace World

/-- The provider has answered that the payment is in the status. -/
def Verified (s : World) (txRef : String) (status : VerifyStatus) : Prop :=
  ∃ e ∈ s.history, e.verification = some (txRef, status)

/-- The creation of the transfer has been carried through. -/
def Initiated (s : World) (id : String) : Prop := ∃ e ∈ s.history, e.initiates id = true

/-- The event is about a transfer that has been credited or has failed. -/
def Resolved (s : World) (e : WebhookEvent) : Prop :=
  ∃ t ∈ s.db.transfers, TransferCompleteService.txRef e = some t.flutterwaveTxRef ∧
    (s.db.Credited t ∨ s.Verified t.flutterwaveTxRef .failed)

structure FundingOk (s : World) : Prop where
  staged : s.Staged fun _ w => w.inTransaction = true
  successful : ∀ t ∈ s.db.transfers, t.status = .successful →
    s.db.Credited t ∧ s.Verified t.flutterwaveTxRef .successful
  processed : ∀ e ∈ s.db.webhookEvents, e.status = .processed → s.Resolved e
  linked : ∀ t ∈ s.db.transfers, t.checkoutUrl.isSome → s.db.Linked t
  initiated : ∀ id, s.Initiated id ↔ ∃ t ∈ s.db.transfers, t.id = id ∧ t.checkoutUrl.isSome

end World

/-! ### What is not taken back -/

theorem Transfer.id_of_core (h : x.core = y.core) : x.id = y.id := by
  have hid : x.core.id = y.core.id := by rw [h]
  exact hid

theorem Transfer.txRef_of_core (h : x.core = y.core) : x.flutterwaveTxRef = y.flutterwaveTxRef := by
  have href : x.core.flutterwaveTxRef = y.core.flutterwaveTxRef := by rw [h]
  exact href

theorem TransferCompleteService.txRef_of_core (h : e.core = e'.core) :
    TransferCompleteService.txRef e = TransferCompleteService.txRef e' := by
  show TransferCompleteService.txRef e.core = TransferCompleteService.txRef e'.core
  rw [h]

theorem Db.Keeps.trans {d'' : Db} (h : d.Keeps d') (h' : d'.Keeps d'') : d.Keeps d'' where
  wallets x hx := h'.wallets x (h.wallets x hx)
  transfers t ht := by
    obtain ⟨t', ht', hcore⟩ := h.transfers t ht
    obtain ⟨t'', ht'', hcore'⟩ := h'.transfers t' ht'
    exact ⟨t'', ht'', hcore'.trans hcore⟩
  rows r hr hs := h'.rows r (h.rows r hr hs) hs
  withdrawals w hw := by
    obtain ⟨w', hw', hfixed⟩ := h.withdrawals w hw
    obtain ⟨w'', hw'', hfixed'⟩ := h'.withdrawals w' hw'
    exact ⟨w'', hw'', hfixed'.trans hfixed⟩

theorem keeps_of_guar (hu : s.db.Unique)
    (hg : ((bookkeeping A).discipline P config).Guar i s t) : s.db.Keeps t.db := by
  rcases hg.2.2.db with hdb | heffect
  · rw [hdb]
    exact .refl _
  · exact heffect.keeps hu

theorem Db.Linked.mono (h : d.Linked y) (hg : d.Grows d') (hx : x.core = y.core) :
    d'.Linked x := by
  obtain ⟨r, hr, hid⟩ := h
  obtain ⟨r', hr', hcore⟩ := hg.walletTransactions r hr
  have hid' : r'.core.transferId = r.core.transferId := by rw [hcore]
  have hlink : r'.transferId = r.transferId := hid'
  exact ⟨r', hr', by rw [hlink, hid, Transfer.id_of_core hx]⟩

theorem Db.Credited.mono (h : d.Credited y) (hk : d.Keeps d') (hx : x.core = y.core) :
    d'.Credited x := by
  obtain ⟨r, hr, hid, hs⟩ := h
  exact ⟨r, hk.rows r hr hs, by rw [hid, Transfer.id_of_core hx], hs⟩

theorem Db.Credited.linked (h : d.Credited x) : d.Linked x := by
  obtain ⟨r, hr, hid, -⟩ := h
  exact ⟨r, hr, hid⟩

namespace World

theorem Verified.mono {txRef : String} {status : VerifyStatus} (h : s.Verified txRef status)
    (hh : ∀ e ∈ s.history, e ∈ t.history) : t.Verified txRef status := by
  obtain ⟨e, he, hverification⟩ := h
  exact ⟨e, hh e he, hverification⟩

theorem Initiated.mono {id : String} (h : s.Initiated id) (hh : ∀ e ∈ s.history, e ∈ t.history) :
    t.Initiated id := by
  obtain ⟨e, he, hinitiates⟩ := h
  exact ⟨e, hh e he, hinitiates⟩

theorem Resolved.mono (h : s.Resolved e) (hk : s.db.Keeps t.db)
    (hh : ∀ e ∈ s.history, e ∈ t.history) (he : e'.core = e.core) : t.Resolved e' := by
  obtain ⟨y, hy, href, hwhy⟩ := h
  obtain ⟨x, hx, hcore⟩ := hk.transfers y hy
  refine ⟨x, hx, ?_, ?_⟩
  · rw [TransferCompleteService.txRef_of_core he, href, Transfer.txRef_of_core hcore]
  · rw [Transfer.txRef_of_core hcore]
    exact hwhy.imp (·.mono hk hcore) (·.mono hh)

/-! ### One step -/

/-- What the states say is kept by a change after which there is a reason for each of
them that is new. -/
theorem FundingOk.next (h : s.FundingOk) (hk : s.db.Keeps t.db) (hg : s.db.Grows t.db)
    (hh : ∀ e ∈ s.history, e ∈ t.history) (hstaged : t.Staged fun _ w => w.inTransaction = true)
    (hsuccessful : ∀ x ∈ t.db.transfers, x.status = .successful →
      (∃ y ∈ s.db.transfers, x.core = y.core ∧ y.status = .successful) ∨
        s.db.Credited x ∧ s.Verified x.flutterwaveTxRef .successful)
    (hprocessed : ∀ e' ∈ t.db.webhookEvents, e'.status = .processed →
      ∃ e ∈ s.db.webhookEvents, e'.core = e.core ∧ (e.status = .processed ∨ s.Resolved e))
    (hlinked : ∀ x ∈ t.db.transfers, x.checkoutUrl.isSome →
      (∃ y ∈ s.db.transfers, x.core = y.core ∧ y.checkoutUrl.isSome) ∨ s.db.Linked x)
    (hinitiated : ∀ id, t.Initiated id ↔
      ∃ t' ∈ t.db.transfers, t'.id = id ∧ t'.checkoutUrl.isSome) : t.FundingOk where
  staged := hstaged
  successful x hx hs := by
    rcases hsuccessful x hx hs with ⟨y, hy, hcore, hs'⟩ | ⟨hcredited, hverified⟩
    · obtain ⟨hcredited, hverified⟩ := h.successful y hy hs'
      rw [Transfer.txRef_of_core hcore]
      exact ⟨hcredited.mono hk hcore, hverified.mono hh⟩
    · exact ⟨hcredited.mono hk rfl, hverified.mono hh⟩
  processed e' he' hs := by
    obtain ⟨e, he, hcore, hs' | hresolved⟩ := hprocessed e' he' hs
    · exact (h.processed e he hs').mono hk hh hcore
    · exact hresolved.mono hk hh hcore
  linked x hx hurl := by
    rcases hlinked x hx hurl with ⟨y, hy, hcore, hurl'⟩ | hlinked
    · exact (h.linked y hy hurl').mono hg hcore
    · exact hlinked.mono hg rfl
  initiated := hinitiated

/-- A change that leaves the transfers and the events alone. -/
theorem FundingOk.same (h : s.FundingOk) (hk : s.db.Keeps t.db) (hg : s.db.Grows t.db)
    (hstaged : t.Staged fun _ w => w.inTransaction = true)
    (htransfers : t.db.transfers = s.db.transfers)
    (hevents : t.db.webhookEvents = s.db.webhookEvents)
    (hhistory : t.history = s.history ∨
      ∃ e, t.history = e :: s.history ∧ ∀ id, e.initiates id = false) : t.FundingOk := by
  have hh : ∀ e ∈ s.history, e ∈ t.history := by
    rcases hhistory with hsame | ⟨e, he, -⟩
    · exact fun e he => hsame ▸ he
    · exact fun e' he' => he ▸ .tail _ he'
  refine h.next hk hg hh hstaged (fun x hx hs => .inl ⟨x, htransfers ▸ hx, rfl, hs⟩)
    (fun e he hs => ⟨e, hevents ▸ he, rfl, .inl hs⟩)
    (fun x hx hurl => .inl ⟨x, htransfers ▸ hx, rfl, hurl⟩) fun id => ?_
  rw [htransfers, ← h.initiated id]
  refine ⟨?_, fun hi => hi.mono hh⟩
  rintro ⟨e, he, hinitiates⟩
  rcases hhistory with hsame | ⟨e', he', hnot⟩
  · exact ⟨e, hsame ▸ he, hinitiates⟩
  · rw [he'] at he
    rcases List.mem_cons.mp he with rfl | hold
    · cases (hnot id).symm.trans hinitiates
    · exact ⟨e, hold, hinitiates⟩

/-- What a write has to wait for. -/
def fundingDemand (s : World) : Cmd → Prop
  | .write .tx w => w.inTransaction = true
  | .write .pool (.createTransfer row) => row.status ≠ .successful ∧ row.checkoutUrl = none
  | .write .pool (.updateTransfer id data) =>
      (data.status = some .successful → ∀ t ∈ s.db.transfers, t.id = id →
        s.db.Credited t ∧ s.Verified t.flutterwaveTxRef .successful) ∧
      (data.checkoutUrl.isSome → data.checkoutUrl.join.isSome ∧
        ∃ t ∈ s.db.transfers, t.id = id ∧ s.db.Linked t)
  | .write .pool (.createWebhookEvent row) => row.status ≠ .processed
  | .write .pool (.updateWebhookEvent id status _) =>
      status = .processed → ∀ e ∈ s.db.webhookEvents, e.id = id → s.Resolved e
  | _ => True

section Write

variable {w : Write} {id : String}

theorem successful_of_write (hd : fundingDemand s (.write .pool w))
    (hx : x ∈ (w.apply s.db).transfers) (hs : x.status = .successful) :
    (∃ y ∈ s.db.transfers, x.core = y.core ∧ y.status = .successful) ∨
      s.db.Credited x ∧ s.Verified x.flutterwaveTxRef .successful := by
  rcases Write.transfer_of_apply hx with hold | rfl | ⟨y, hy, data, rfl, rfl⟩
  · exact .inl ⟨x, hold, rfl, hs⟩
  · exact absurd hs hd.1
  · have hstatus : data.status.getD y.status = .successful := hs
    cases hdata : data.status with
    | none =>
        rw [hdata] at hstatus
        exact .inl ⟨y, hy, rfl, hstatus⟩
    | some status =>
        rw [hdata] at hstatus
        have hsome : data.status = some .successful := by rw [hdata, ← hstatus]; rfl
        obtain ⟨hcredited, hverified⟩ := hd.1 hsome y hy rfl
        exact .inr ⟨hcredited.mono (.refl _) (Transfer.core_patch data y), hverified⟩

theorem processed_of_write (hd : fundingDemand s (.write .pool w))
    (he : e' ∈ (w.apply s.db).webhookEvents) (hs : e'.status = .processed) :
    ∃ e ∈ s.db.webhookEvents, e'.core = e.core ∧ (e.status = .processed ∨ s.Resolved e) := by
  rcases Write.webhookEvent_of_apply he with hold | rfl | ⟨e, hmem, status, processedAt, rfl, rfl⟩
  · exact ⟨e', hold, rfl, .inl hs⟩
  · exact absurd hs hd
  · exact ⟨e, hmem, rfl, .inr (hd hs e hmem rfl)⟩

theorem linked_of_write (hu : s.db.Unique) (hd : fundingDemand s (.write .pool w))
    (hx : x ∈ (w.apply s.db).transfers) (hurl : x.checkoutUrl.isSome) :
    (∃ y ∈ s.db.transfers, x.core = y.core ∧ y.checkoutUrl.isSome) ∨ s.db.Linked x := by
  rcases Write.transfer_of_apply hx with hold | rfl | ⟨y, hy, data, rfl, rfl⟩
  · exact .inl ⟨x, hold, rfl, hurl⟩
  · rw [hd.2] at hurl
    cases hurl
  · cases hdata : data.checkoutUrl with
    | none =>
        have hsame : (y.patch data).checkoutUrl = y.checkoutUrl := by
          rw [Transfer.patch, hdata]
          rfl
        exact .inl ⟨y, hy, rfl, hsame ▸ hurl⟩
    | some url =>
        obtain ⟨-, z, hz, hid, hlinked⟩ := hd.2 (by rw [hdata]; rfl)
        rw [hu.transfer_ext hz hy hid] at hlinked
        exact .inr (hlinked.mono (.refl _) (Transfer.core_patch data y))

/-- A checkout link stays once it is stored. -/
theorem isSome_checkoutUrl_patch {data : UpdateTransferData} (hurl : y.checkoutUrl.isSome)
    (hdata : data.checkoutUrl.isSome → data.checkoutUrl.join.isSome) :
    (y.patch data).checkoutUrl.isSome := by
  show (data.checkoutUrl.getD y.checkoutUrl).isSome
  cases h : data.checkoutUrl with
  | none => exact hurl
  | some url =>
      rw [h] at hdata
      exact hdata rfl

theorem initiates_iff {pid : ℕ} {r : Except Err w.Result} :
    Event.initiates ⟨pid, .write .pool w, r, true⟩ id = true ↔
      ∃ data, w = .updateTransfer id data ∧ data.checkoutUrl.join.isSome := by
  constructor
  · intro h
    cases w with
    | updateTransfer id' data =>
        obtain ⟨hid, hurl⟩ := (Bool.and_eq_true ..).mp h
        exact ⟨data, by rw [of_decide_eq_true hid], hurl⟩
    | _ => cases h
  · rintro ⟨data, rfl, hurl⟩
    exact (Bool.and_eq_true ..).mpr ⟨decide_eq_true rfl, hurl⟩

theorem initiates_of_ne {pid : ℕ} {r : Except Err c.Resp} {took : Bool}
    (hc : ∀ w, c ≠ .write .pool w) (id : String) : Event.initiates ⟨pid, c, r, took⟩ id = false := by
  unfold Event.initiates
  split
  · rename_i hevent
    cases hevent
    exact absurd rfl (hc _)
  · rfl

theorem initiated_of_write {r : Except Err w.Result} (h : s.FundingOk)
    (hd : fundingDemand s (.write .pool w)) (hdb : t.db = w.apply s.db)
    (hh : t.history = ⟨i, .write .pool w, r, true⟩ :: s.history) :
    t.Initiated id ↔ ∃ t' ∈ t.db.transfers, t'.id = id ∧ t'.checkoutUrl.isSome := by
  rw [hdb]
  constructor
  · rintro ⟨e, he, hinitiates⟩
    rw [hh] at he
    rcases List.mem_cons.mp he with rfl | hold
    · obtain ⟨data, rfl, hurl⟩ := initiates_iff.mp hinitiates
      have hsome : data.checkoutUrl.isSome := by
        cases hdata : data.checkoutUrl with
        | none =>
            rw [hdata] at hurl
            cases hurl
        | some url => rfl
      obtain ⟨-, y, hy, hid, -⟩ := hd.2 hsome
      refine ⟨y.patch data, List.mem_map.mpr ⟨y, hy, if_pos hid⟩, hid, ?_⟩
      show (data.checkoutUrl.getD y.checkoutUrl).isSome
      cases hdata : data.checkoutUrl with
      | none =>
          rw [hdata] at hsome
          cases hsome
      | some url =>
          rw [hdata] at hurl
          exact hurl
    · obtain ⟨y, hy, hid, hurl⟩ := (h.initiated id).mp ⟨e, hold, hinitiates⟩
      rcases w.transfer_apply hy with hsame | ⟨data, rfl, hpatched⟩
      · exact ⟨y, hsame, hid, hurl⟩
      · exact ⟨y.patch data, hpatched, hid, isSome_checkoutUrl_patch hurl fun hd' => (hd.2 hd').1⟩
  · rintro ⟨x, hx, hid, hurl⟩
    have hold {y : Transfer} (hy : y ∈ s.db.transfers) (hid : y.id = id)
        (hurl : y.checkoutUrl.isSome) : t.Initiated id :=
      ((h.initiated id).mpr ⟨y, hy, hid, hurl⟩).mono fun e he => hh ▸ .tail _ he
    rcases Write.transfer_of_apply hx with hmem | rfl | ⟨y, hy, data, rfl, rfl⟩
    · exact hold hmem hid hurl
    · rw [hd.2] at hurl
      cases hurl
    · cases hdata : data.checkoutUrl with
      | none =>
          have hsame : (y.patch data).checkoutUrl = y.checkoutUrl := by
            rw [Transfer.patch, hdata]
            rfl
          exact hold hy hid (hsame ▸ hurl)
      | some url =>
          have hjoin := (hd.2 (by rw [hdata]; rfl)).1
          have hid' : y.id = id := hid
          refine ⟨⟨i, .write .pool (.updateTransfer y.id data), r, true⟩, ?_,
            initiates_iff.mpr ⟨data, ?_, hjoin⟩⟩
          · rw [hh]
            exact .head _
          · rw [← hid']

end Write

/-- A step that has waited for what it needs keeps the funding in order. -/
theorem FundingOk.step {r : Except Err c.Resp} (h : s.FundingOk) (hu : s.db.Unique)
    (he : exec P config i c ch s = some (r, t)) (hk : s.db.Keeps t.db)
    (hd : fundingDemand s c) : t.FundingOk := by
  have hstepped : Stepped P config i s t := .inl ⟨c, ch, r, he⟩
  have hg : s.db.Grows t.db := hstepped.grows
  have hstaged : t.Staged fun _ w => w.inTransaction = true :=
    h.staged.exec he (fun _ _ h => h) fun w hw => by
      subst hw
      exact hd
  by_cases hpool : ∃ w, c = .write .pool w
  · obtain ⟨w, rfl⟩ := hpool
    rcases exec_write_pool he with ⟨hdb, hh⟩ | ⟨hdb, hh⟩
    · refine h.same hk hg hstaged (by rw [hdb]) (by rw [hdb]) (.inr ⟨_, hh, fun id => ?_⟩)
      unfold Event.initiates
      cases w <;> rfl
    · refine h.next hk hg (fun e he => hh ▸ .tail _ he) hstaged ?_ ?_ ?_ fun id =>
        initiated_of_write h hd hdb hh
      · exact fun x hx hs => successful_of_write hd (hdb ▸ hx) hs
      · exact fun e he hs => processed_of_write hd (hdb ▸ he) hs
      · exact fun x hx hurl => linked_of_write hu hd (hdb ▸ hx) hurl
  · obtain ⟨took, hh⟩ := exec_history he
    have hhistory : t.history = s.history ∨
        ∃ e, t.history = e :: s.history ∧ ∀ id, e.initiates id = false :=
      .inr ⟨_, hh, initiates_of_ne (fun w hw => hpool ⟨w, hw⟩)⟩
    rcases exec_db he with hdb | ⟨w, hw, -⟩ | ⟨-, ws, hopen, hdb⟩
    · exact h.same hk hg hstaged (by rw [hdb]) (by rw [hdb]) hhistory
    · exact absurd ⟨w, hw⟩ hpool
    · have htables := applyAll_keeps (p := fun w => w.inTransaction = true)
        (I := fun d => d.transfers = s.db.transfers ∧ d.webhookEvents = s.db.webhookEvents)
        (fun w d hw hd => ⟨(Write.apply_inTransaction hw d).2.2.1.trans hd.1,
          (Write.apply_inTransaction hw d).2.2.2.trans hd.2⟩)
        (fun w hw => h.staged i ws hopen w hw) ⟨rfl, rfl⟩
      exact h.same hk hg hstaged (hdb ▸ htables.1) (hdb ▸ htables.2) hhistory

theorem FundingOk.initial : World.initial.FundingOk where
  staged _ _ hopen := by cases hopen
  successful _ hx := absurd hx List.not_mem_nil
  processed _ he := absurd he List.not_mem_nil
  linked _ hx := absurd hx List.not_mem_nil
  initiated _ := ⟨fun ⟨_, he, _⟩ => absurd he List.not_mem_nil,
    fun ⟨_, hx, _⟩ => absurd hx List.not_mem_nil⟩

/-- A thread that stops only gives up its buffer. -/
theorem FundingOk.crash (h : s.FundingOk) : (World.crash i s).FundingOk :=
  { h with staged := h.staged.crash }

end World

/-! ### The overlay -/

variable (P config A) in
/-- What the states of the fundings say, on top of the books. -/
def funding : Overlay ((bookkeeping A).discipline P config) where
  Inv := World.FundingOk
  Demand _ c s := s.fundingDemand c
  Plain c := ∀ s : World, s.fundingDemand c
  meets hc := hc _
  keeps hc hstep hs _ hg h := by
    obtain ⟨ch, -, he⟩ := hstep
    exact h.step hs.2.1 he (keeps_of_guar hs.2.1 hg) (hc _)

theorem funding_common (c : Cmd) (hc : c.common = true) : (funding P config A).Plain c := by
  intro s
  cases c with
  | write client w => cases hc
  | _ => trivial

/-- Nothing is taken back in the course of a run. -/
theorem keeps_of_runs (h : ((bookkeeping A).discipline P config).Runs s t) : s.db.Keeps t.db :=
  h.lift (fun s t => s.db.Keeps t.db) (fun s => Db.Keeps.refl s.db) (fun h h' => h.trans h')
    fun hs _ hg => keeps_of_guar hs.2.1 hg

theorem mem_history_of_runs (h : ((bookkeeping A).discipline P config).Runs s t) :
    ∀ e ∈ s.history, e ∈ t.history := by
  obtain ⟨es, hes⟩ := history_of_runs h
  exact fun e he => hes ▸ List.mem_append_right _ he

namespace Over

variable {α : Type} {Q : α → World → Prop}

/-- A write that has waited for what it needs. -/
theorem fundingWrite {w : Write} {Q : w.Result → World → Prop}
    (hd : ∀ t, (funding P config A).layered.Inv t → ((bookkeeping A).discipline P config).Runs s t →
      t.fundingDemand (.write .pool w))
    (h : ∀ t u a, Passed (funding P config A) q i (.write .pool w) s t a u → Q a u) :
    Over (funding P config A) q i (write .pool w) Q s := by
  refine command hd (fun t r u ht ho _ hg => ?_) h
  obtain ⟨ch, -, he⟩ := ho.exec
  exact ht.2.step ht.1.2.1 he (keeps_of_guar ht.1.2.1 hg) (hd t ht ho.runs)

end Over

/-! ### The worker -/

/-- The transfer is there, in whatever status. -/
def Db.HasTransfer (d : Db) (t : Transfer) : Prop := ∃ x ∈ d.transfers, x.core = t.core

/-- So is the event. -/
def Db.HasEvent (d : Db) (e : WebhookEvent) : Prop := ∃ e' ∈ d.webhookEvents, e'.core = e.core

theorem Db.HasTransfer.mono (h : d.HasTransfer x) (hg : d.Grows d') : d'.HasTransfer x := by
  obtain ⟨y, hy, hcore⟩ := h
  obtain ⟨z, hz, hcore'⟩ := hg.transfers y hy
  exact ⟨z, hz, hcore'.trans hcore⟩

theorem Db.HasEvent.mono (h : d.HasEvent e) (hg : d.Grows d') : d'.HasEvent e := by
  obtain ⟨e', he', hcore⟩ := h
  obtain ⟨e'', he'', hcore'⟩ := hg.webhookEvents e' he'
  exact ⟨e'', he'', hcore'.trans hcore⟩

theorem Db.HasTransfer.core_eq (h : d.HasTransfer x) (hu : d.Unique) (hy : y ∈ d.transfers)
    (hid : y.id = x.id) : y.core = x.core := by
  obtain ⟨z, hz, hcore⟩ := h
  rw [hu.transfer_ext hy hz (hid.trans (Transfer.id_of_core hcore).symm), hcore]

theorem Db.HasEvent.core_eq (h : d.HasEvent e) (hu : d.Unique) (he : e' ∈ d.webhookEvents)
    (hid : e'.id = e.id) : e'.core = e.core := by
  obtain ⟨e'', he'', hcore⟩ := h
  have hid' : e''.core.id = e.core.id := by rw [hcore]
  have hid'' : e''.id = e.id := hid'
  rw [hu.webhookEvent_ext he he'' (hid.trans hid''.symm), hcore]

namespace TransferCompleteService

variable {α : Type} {event : WebhookEvent} {transfer : Transfer} {verified : VerifyPaymentResult}
  {status : WebhookEventStatus} {Q : α → World → Prop} {rest : WebhookEvent → Program α}

theorem over_mark (hd : ∀ t : World, t.db.Unique → ((bookkeeping A).discipline P config).Runs s t →
      status = .processed → ∀ e ∈ t.db.webhookEvents, e.id = event.id → t.Resolved e)
    (h : ∀ e u, Over (funding P config A) q i (rest e) Q u) :
    Over (funding P config A) q i (WebhookEventRepository.mark event.id status >>= rest) Q s := by
  refine .bind (.bind (.common funding_common rfl fun t u processedAt hp => ?_))
  refine .fundingWrite (fun t' ht' hr => ?_) fun _ v e _ => h e v
  exact hd t' ht'.1.2.1 (hp.runs.trans hr)

/-- An event that has failed may be tried again. -/
theorem over_markFailed (h : ∀ e u, Over (funding P config A) q i (rest e) Q u) :
    Over (funding P config A) q i (WebhookEventRepository.markFailed event.id >>= rest) Q s :=
  over_mark (fun _ _ _ => nofun) h

/-- An event is done when its transfer has been credited or its payment has failed. -/
theorem over_markProcessed (hevent : s.db.HasEvent event) (htransfer : s.db.HasTransfer transfer)
    (href : txRef event = some transfer.flutterwaveTxRef)
    (hwhy : s.db.Credited transfer ∨ s.Verified transfer.flutterwaveTxRef .failed)
    (h : ∀ e u, Over (funding P config A) q i (rest e) Q u) :
    Over (funding P config A) q i (WebhookEventRepository.markProcessed event.id >>= rest) Q s := by
  refine over_mark (fun t hu hr _ e he hid => ?_) h
  have hg : s.db.Grows t.db := grows_of_runs hr
  obtain ⟨x, hx, hcore⟩ := htransfer.mono hg
  refine ⟨x, hx, ?_, ?_⟩
  · rw [txRef_of_core ((hevent.mono hg).core_eq hu he hid), href, Transfer.txRef_of_core hcore]
  · rw [Transfer.txRef_of_core hcore]
    exact hwhy.imp (·.mono (keeps_of_runs hr) hcore) (·.mono (mem_history_of_runs hr))

/-- After the credit the money is there. -/
theorem over_credit : Over (funding P config A) q i (credit event transfer)
    (fun _ u => ((bookkeeping A).discipline P config).Runs s u ∧ u.db.Credited transfer) s := by
  refine .bind (.lookup (fun _ => trivial) fun t u hp => ?_)
  have hrows : ∀ credits : List WalletTransaction,
      Query.run (.walletTransactionsByTransferId transfer.id) (t.view i .pool) = credits →
      ∀ r ∈ credits, r ∈ u.db.walletTransactions ∧ r.transferId = some transfer.id := by
    intro credits hcredits r hr
    rw [hp.own.db_quiet rfl]
    exact (mem_walletTransactionsByTransferId hcredits).mp hr
  generalize Query.run (.walletTransactionsByTransferId transfer.id) (t.view i .pool) = credits
    at hrows ⊢
  replace hrows := hrows credits rfl
  dsimp only
  split
  · rename_i r halready
    obtain ⟨hr, hid⟩ := hrows r (List.mem_of_find?_eq_some halready)
    have hfound := List.find?_some halready
    exact .ret ⟨hp.runs, r, hr, hid, (of_decide_eq_true hfound).2⟩
  · split
    · exact over_markFailed fun _ _ => .fail
    · rename_i pending hpending
      obtain ⟨hr, hid⟩ := hrows pending (List.mem_of_find?_eq_some hpending)
      -- The ledger completes the row; the footprint tells that nothing else is written.
      have hwithin : Over (funding P config A) q i (WalletLedgerService.completeCreditSuccessful
          { transactionId := pending.id, expectedWalletId := transfer.walletId })
          (fun _ v => ((bookkeeping A).discipline P config).Runs u v) u :=
        .within (WalletLedgerService.within_completeCreditSuccessful funding_common fun _ _ => rfl)
          fun _ _ hr => hr
      refine .bind (.mono ?_ (hwithin.and (WalletLedgerService.wp_completeCreditSuccessful
        (fun _ _ => trivial) (fun t u r _ hc hr _ _ hs => grant_completeCredit hc hr hs)
        fun _ _ hcompletes => hcompletes)))
      rintro _ v ⟨huv, t', r, hut', ht'v, hr', hrid, hs⟩
      refine .ret ⟨hp.runs.trans huv, Db.Credited.mono ?_ (keeps_of_runs ht'v) rfl⟩
      have hunique : t'.db.Unique := (inv_of_runs hut' hp.after.1).2.1
      have hcore := (grows_of_runs hut').row hunique hr hr' hrid
      have hid' : r.core.transferId = pending.core.transferId := by rw [hcore]
      exact ⟨r, hr', (show r.transferId = pending.transferId from hid').trans hid, hs⟩

theorem over_settle (hevent : s.db.HasEvent event) (htransfer : s.db.HasTransfer transfer)
    (href : txRef event = some transfer.flutterwaveTxRef)
    (hverified : s.Verified transfer.flutterwaveTxRef .successful) :
    Over (funding P config A) q i (settle event transfer verified) (fun _ _ => True) s := by
  show Over _ q i (if _ then _ else _) _ _
  split
  · exact over_markFailed fun _ _ => .fail
  · refine .bind (over_credit.mono fun _ u hu => ?_)
    obtain ⟨hsu, hcredited⟩ := hu
    refine .bind (.fundingWrite (fun t ht hr => ⟨fun _ x hx hid => ?_, nofun⟩) fun t v _ hp => ?_)
    · have hcore := (htransfer.mono (grows_of_runs (hsu.trans hr))).core_eq ht.1.2.1 hx hid
      rw [Transfer.txRef_of_core hcore]
      exact ⟨hcredited.mono (keeps_of_runs hr) hcore,
        hverified.mono (mem_history_of_runs (hsu.trans hr))⟩
    · have hg := grows_of_runs (hsu.trans hp.runs)
      exact over_markProcessed (hevent.mono hg) (htransfer.mono hg) href
        (.inl (hcredited.mono (keeps_of_runs hp.runs) rfl)) fun _ _ => .ret trivial

theorem over_handleVerified (hevent : s.db.HasEvent event) (htransfer : s.db.HasTransfer transfer)
    (href : txRef event = some transfer.flutterwaveTxRef)
    (hverified : s.Verified transfer.flutterwaveTxRef verified.status) :
    Over (funding P config A) q i (handleVerified event transfer verified) (fun _ _ => True) s := by
  show Over _ q i (if _ then _ else _) _ _
  split
  · split
    · rename_i hfailed
      refine .bind (.fundingWrite (fun t _ _ => ⟨nofun, nofun⟩) fun t v _ hp => ?_)
      have hg := grows_of_runs hp.runs
      rw [hfailed] at hverified
      exact over_markProcessed (hevent.mono hg) (htransfer.mono hg) href
        (.inr (hverified.mono (mem_history_of_runs hp.runs))) fun _ _ => .ret trivial
    · exact .ret trivial
  · rename_i hsuccessful
    exact over_settle hevent htransfer href (not_not.mp hsuccessful ▸ hverified)

theorem over_complete {ref : String} (hevent : s.db.HasEvent event) (href : txRef event = some ref) :
    Over (funding P config A) q i (complete event ref) (fun _ _ => True) s := by
  refine .bind (.lookup (funding_common _ rfl) fun t u hp => ?_)
  have hfound : ∀ transfer, Query.run (.transferByFlutterwaveTxRef ref) (t.view i .pool) =
      some transfer → transfer ∈ u.db.transfers ∧ transfer.flutterwaveTxRef = ref := by
    intro transfer h
    have hp' := List.find?_some h
    rw [hp.own.db_quiet rfl]
    exact ⟨List.mem_of_find?_eq_some h, of_decide_eq_true hp'⟩
  generalize Query.run (.transferByFlutterwaveTxRef ref) (t.view i .pool) = found at hfound ⊢
  cases found with
  | none => exact over_markFailed fun _ _ => .ret trivial
  | some transfer =>
      obtain ⟨hx, rfl⟩ := hfound transfer rfl
      have hevent : u.db.HasEvent event := hevent.mono (grows_of_runs hp.runs)
      have htransfer : u.db.HasTransfer transfer := ⟨transfer, hx, rfl⟩
      show Over _ q i (if _ then _ else _) _ _
      split
      · rename_i hs
        exact over_markProcessed hevent htransfer href (.inl (hp.overlay.successful transfer hx hs).1)
          fun _ _ => .ret trivial
      · refine .bind (.plain (fun _ => trivial) fun t' v (verified : VerifyPaymentResult) hp' => ?_)
        have hg := grows_of_runs hp'.runs
        obtain ⟨took, hh⟩ := hp'.own.history
        have hverified : v.Verified transfer.flutterwaveTxRef verified.status := by
          refine ⟨⟨i, .verifyByTxRef transfer.flutterwaveTxRef, .ok verified, took⟩, ?_, rfl⟩
          rw [hh]
          exact .head _
        exact over_handleVerified (hevent.mono hg) (htransfer.mono hg) href hverified

theorem over_completeFromWebhook {webhookEventId : String} :
    Over (funding P config A) q i (completeFromWebhook webhookEventId) (fun _ _ => True) s := by
  refine .bind (.lookup (funding_common _ rfl) fun t u hp => ?_)
  have hfound : ∀ event, Query.run (.webhookEventById webhookEventId) (t.view i .pool) =
      some event → event ∈ u.db.webhookEvents := by
    intro event h
    rw [hp.own.db_quiet rfl]
    exact List.mem_of_find?_eq_some h
  generalize Query.run (.webhookEventById webhookEventId) (t.view i .pool) = found at hfound ⊢
  cases found with
  | none => exact .ret trivial
  | some event =>
      show Over _ q i (if _ then _ else _) _ _
      split
      · exact .ret trivial
      · split
        · exact over_markFailed fun _ _ => .fail
        · rename_i ref href
          exact over_complete ⟨event, hfound event rfl, rfl⟩ href

end TransferCompleteService

/-! ### The request -/

/-- A row with the key of the transfer is linked to it. -/
theorem transferId_of_fundingKey {r : WalletTransaction} (hu : d.Unique) (hb : d.Books)
    (hx : x ∈ d.transfers) (hr : r ∈ d.walletTransactions)
    (hkey : r.idempotencyKey = x.creditData.idempotencyKey) : r.transferId = some x.id := by
  have hstart : r.idempotencyKey = "funding:" ++ (x.userId ++ (":" ++ x.idempotencyKey)) := by
    rw [hkey, ← String.append_assoc, ← String.append_assoc]
    rfl
  have different {a y : String} (ha : a ∈ keyStarts) (hne : "funding:" ≠ a)
      (hra : r.idempotencyKey = a ++ y) : False :=
    ne_of_keyStarts (by decide) ha hne (hstart.symm.trans hra)
  cases hb.origin r hr with
  | funding t ht hmade _ =>
      have hkey' : r.core.idempotencyKey = t.creditData.idempotencyKey := by rw [hmade]; rfl
      have hid : r.core.transferId = some t.id := by rw [hmade]; rfl
      have heq : "funding:" ++ x.userId ++ ":" ++ x.idempotencyKey =
          "funding:" ++ t.userId ++ ":" ++ t.idempotencyKey := hkey.symm.trans hkey'
      obtain ⟨huser, hk⟩ := key_inj (hb.transfer x hx).key (hb.transfer t ht).key heq
      rw [hu.transfer_of_idempotencyKey hx ht huser hk]
      exact hid
  | debit w _ hmade =>
      have hk : r.idempotencyKey = w.debitData.idempotencyKey := by rw [hmade]; rfl
      unfold Withdrawal.debitData at hk
      split at hk
      · exact (different (a := "p2p-debit:") (y := w.userId ++ (":" ++ w.idempotencyKey)) (by decide)
          (by decide) (by rw [hk, String.append_assoc, String.append_assoc])).elim
      · exact (different (a := "bank-debit:") (y := w.userId ++ (":" ++ w.idempotencyKey)) (by decide)
          (by decide) (by rw [hk, String.append_assoc, String.append_assoc])).elim
  | credit w _ _ hmade =>
      have hk : r.idempotencyKey = w.creditData.idempotencyKey := by rw [hmade]; rfl
      have hk' : r.idempotencyKey = "p2p-credit:" ++ (w.userId ++ (":" ++ w.idempotencyKey)) := by
        rw [hk, ← String.append_assoc, ← String.append_assoc]
        rfl
      exact (different (by decide) (by decide) hk').elim
  | reversal w _ _ hmade =>
      have hk : r.idempotencyKey = w.reversalData.idempotencyKey := by rw [hmade]; rfl
      exact (different (by decide) (by decide) hk).elim

namespace TransferCreateService

variable {actor : JwtPayloadUser} {key : String}

/-- The answer is about the transfer of the user with the key. -/
def Answers (actor : JwtPayloadUser) (key : String) (response : TransferResponse) (u : World) :
    Prop :=
  ∃ t ∈ u.db.transfers, t.userId = actor.userId ∧ t.idempotencyKey = key ∧
    ∃ message, response = t.toResponse message

/-- The pending credit of a transfer that is stored links a row to it. -/
theorem wp_postCreditPending_linked {transfer : Transfer}
    (hs : ((bookkeeping A).discipline P config).Inv s) (hmem : transfer ∈ s.db.transfers) :
    ((bookkeeping A).discipline P config).wp q i (WalletLedgerService.postCreditPending
        (pendingCredit transfer transfer.idempotencyKey))
      (fun _ u => u.db.Linked transfer) (fun _ _ => True) s := by
  refine WalletLedgerService.wp_postCreditPending (.any fun _ _ => trivial)
    (fun t u stamp ht hc _ => grant_pendingCredit hmem ht hc) fun r u hback => ?_
  obtain ⟨t, hst, htu, hr, hkey⟩ := hback
  have ht : ((bookkeeping A).discipline P config).Inv t := inv_of_runs hst hs
  obtain ⟨x, hx, hcore⟩ := (grows_of_runs hst).transfers transfer hmem
  have hkey' : r.transaction.idempotencyKey = x.creditData.idempotencyKey := by
    rw [Transfer.creditData_congr hcore]
    exact hkey
  have hlinked : t.db.Linked x :=
    ⟨r.transaction, hr, transferId_of_fundingKey ht.2.1 ht.2.2.2.1 hx hr hkey'⟩
  exact hlinked.mono (grows_of_runs htu) hcore.symm

theorem over_postCreditPending {transfer : Transfer} (hs : (funding P config A).layered.Inv s)
    (hmem : transfer ∈ s.db.transfers) :
    Over (funding P config A) q i (WalletLedgerService.postCreditPending
        (pendingCredit transfer transfer.idempotencyKey))
      (fun _ u => ((bookkeeping A).discipline P config).Runs s u ∧ u.db.Linked transfer) s := by
  have hwithin : Over (funding P config A) q i (WalletLedgerService.postCreditPending
      (pendingCredit transfer transfer.idempotencyKey))
      (fun _ u => ((bookkeeping A).discipline P config).Runs s u) s :=
    .within (WalletLedgerService.within_postCreditPending funding_common fun _ _ _ => rfl)
      fun _ _ hr => hr
  exact hwithin.and (wp_postCreditPending_linked hs.1 hmem)

theorem over_open {amount : ℤ} {currency bodyHash : String} :
    Over (funding P config A) q i (open' config actor amount currency key bodyHash)
      (Answers actor key) s := by
  refine .bind (.lookup (funding_common _ rfl) fun _ _ _ => .bind (.orThrow fun wallet _ => ?_))
  refine .bind (.lookup (funding_common _ rfl) fun _ _ _ => .bind (.orThrow fun user _ => ?_))
  refine .bind (.bind (.common funding_common rfl fun _ _ uuid _ => .ret ?_))
  refine .bind (.bind (.common funding_common rfl fun _ u₀ stamp _ => ?_))
  refine .plain (fun _ => ⟨nofun, rfl⟩) fun t u (transfer : Transfer) hp => ?_
  obtain ⟨hrow, hdb⟩ := hp.own.write_eq
  have hmem : transfer ∈ u.db.transfers := by
    cases hrow
    rw [hdb]
    exact List.mem_append_right _ (.head _)
  have hpending : pendingCredit transfer key = pendingCredit transfer transfer.idempotencyKey := by
    cases hrow
    rfl
  have hanswers : transfer.userId = actor.userId ∧ transfer.idempotencyKey = key := by
    cases hrow
    exact ⟨rfl, rfl⟩
  rw [hpending]
  refine .bind ((over_postCreditPending hp.after hmem).mono fun _ v hv => ?_)
  obtain ⟨huv, hlinked⟩ := hv
  refine .bind (.plain (fun _ => trivial) fun _ v' (payment : InitiatePaymentResult) hp' => ?_)
  refine .bind (.orThrow fun checkoutUrl _ => ?_)
  refine .bind (.fundingWrite (fun t' ht' hr => ⟨nofun, fun _ => ⟨rfl, ?_⟩⟩)
    fun t' v'' (updated : Transfer) hp'' => ?_)
  · have hg := grows_of_runs (hp'.runs.trans hr)
    obtain ⟨x, hx, hcore⟩ := (grows_of_runs ((huv.trans hp'.runs).trans hr)).transfers transfer hmem
    exact ⟨x, hx, Transfer.id_of_core hcore, hlinked.mono hg hcore⟩
  · obtain ⟨hupdated, hdb'⟩ := hp''.own.write_eq
    obtain ⟨x, hx, hpatched⟩ := Option.map_eq_some_iff.mp hupdated
    have hfound := List.find?_some hx
    have hxid : x.id = transfer.id := of_decide_eq_true hfound
    have hxmem := List.mem_of_find?_eq_some hx
    have hg := grows_of_runs ((huv.trans hp'.runs).trans hp''.own.runs)
    have hcore := hg.transfer hp''.own.unique hmem hxmem hxid
    have huser : x.core.userId = transfer.core.userId := by rw [hcore]
    have hkey : x.core.idempotencyKey = transfer.core.idempotencyKey := by rw [hcore]
    refine .ret ⟨updated, ?_, ?_, ?_, _, rfl⟩
    · rw [hdb', ← hpatched]
      exact List.mem_map.mpr ⟨x, hxmem, if_pos hxid⟩
    · rw [← hpatched]
      exact (show x.userId = transfer.userId from huser).trans hanswers.1
    · rw [← hpatched]
      exact (show x.idempotencyKey = transfer.idempotencyKey from hkey).trans hanswers.2

theorem over_create {dto : CreateTransferDto} :
    Over (funding P config A) q i (create P config actor dto key) (Answers actor key) s := by
  refine .bind (.within (AuthCredentialService.within_verifyPinOrThrow funding_common
    (fun _ _ => trivial) fun _ _ _ _ => trivial) fun _ _ _ => ?_)
  refine .bind (.within within_requireNgn fun currency _ _ => ?_)
  refine .bind (.lookup (funding_common _ rfl) fun t u hp => ?_)
  have hfound : ∀ existing, Query.run (.transferByUserAndIdempotencyKey actor.userId key)
      (t.view i .pool) = some existing → existing ∈ u.db.transfers ∧
        existing.userId = actor.userId ∧ existing.idempotencyKey = key := by
    intro existing h
    have hp' := List.find?_some h
    rw [hp.own.db_quiet rfl]
    exact ⟨List.mem_of_find?_eq_some h, of_decide_eq_true hp'⟩
  generalize Query.run (.transferByUserAndIdempotencyKey actor.userId key) (t.view i .pool) = found
    at hfound ⊢
  cases found with
  | some existing =>
      obtain ⟨hmem, huser, hkey⟩ := hfound existing rfl
      exact .bind (.throwIf fun _ => .ret ⟨existing, hmem, huser, hkey, _, rfl⟩)
  | none => exact over_open

end TransferCreateService

/-! ### The certificate -/

/-- What a request for a funding is answered. -/
def Financed (call : Call) (response : Response) (u : World) : Prop :=
  match call, response with
  | .postTransfers actor header _, .transfer response =>
      ∃ key, requireIdempotencyKey header = .ok key ∧
        TransferCreateService.Answers actor key response u
  | _, _ => True

theorem plain_of_footprint {call : Call} (hcall : call.settles = false) {c : Cmd}
    (hc : call.footprint c) : (funding P config A).Plain c := by
  intro s
  unfold World.fundingDemand
  split
  · exact inTransaction_of_writes hc
  · cases call <;> first | exact hc.elim | cases hcall
  · cases call <;> first | exact hc.elim | cases hcall
  · cases call <;> first | exact hc.elim | exact hc ▸ nofun
  · cases call <;> first | exact hc.elim | cases hcall
  · trivial

theorem over_program {call : Call} (hcall : call.isApi = true) :
    Over (funding P config A) call i (program P config call) (Financed call) s := by
  cases hsettles : call.settles with
  | false =>
      have hwithin : (program P config call).Within (funding P config A).Plain :=
        (program_within hcall).mono fun c hc => plain_of_footprint hsettles hc
      refine .within hwithin fun response u _ => ?_
      cases call with
      | postTransfers actor header dto => cases hsettles
      | _ => trivial
  | true =>
      cases call with
      | postTransfers actor header dto =>
          refine .bind ?_
          cases hkey : requireIdempotencyKey header with
          | error e => exact .fail
          | ok key => exact .ret (.map (TransferCreateService.over_create.mono
              fun response u h => ⟨key, hkey, h⟩))
      | transferCompleteWorker =>
          exact .map ((Over.work funding_common
            fun _ _ => TransferCompleteService.over_completeFromWebhook).mono fun _ _ _ => trivial)
      | _ => cases hsettles

variable (P config A) in
/-- Every call of the API keeps what the states of the fundings say. -/
theorem funding_certified : Certified (walletApi P config) (api P config A) World.initial
    ((funding P config A).layered.comap id) (fun call _ => Financed call) fun _ _ _ _ => True :=
  Overlay.certified (api_certified P config A .true) World.FundingOk.initial
    (fun _ h => h.crash) fun hcall _ => over_program hcall

/-! ### The result -/

/-- The credit that is linked to a transfer is the only one, and it is of its amount. -/
theorem credit_of_linked (hu : d.Unique) (hb : d.Books) (hx : x ∈ d.transfers) (h : d.Linked x) :
    ∃ r, d.walletTransactions.filter (fun r => r.type = .credit ∧ r.transferId = some x.id) = [r] ∧
      r.walletId = x.walletId ∧ r.amount = x.amount ∧ (d.Credited x → r.status = .successful) := by
  obtain ⟨r, hr, hid⟩ := h
  have hmade := (madeFrom_of_transferId hu hb hx hr hid).1
  have htype : r.core.type = .credit := by rw [hmade]; rfl
  have hwallet : r.core.walletId = x.walletId := by rw [hmade]; rfl
  have hamount : r.core.amount = x.amount := by rw [hmade]; rfl
  refine ⟨r, filter_eq_singleton (.of_map _ hu.rowIds_nodup) hr ⟨htype, hid⟩
    (fun r' hr' hp => linked_unique hu hb hx hr' hr hp.2 hid), hwallet, hamount, ?_⟩
  rintro ⟨r', hr', hid', hs⟩
  rw [linked_unique hu hb hx hr hr' hid hid']
  exact hs

section Result

open Schedule

variable {cfg : Machine.Config (walletApi P config)}

/-- In every state that a run reaches, a transfer that is SUCCESSFUL has one credit,
which counts, and its payment has been confirmed; and an event that is PROCESSED is
about a transfer whose credit counts or whose payment has failed. -/
theorem settled_states_have_money (h : Machine.Reachable (requests P config) World.initial cfg) :
    (∀ t ∈ cfg.state.db.transfers, t.status = .successful →
      (∃ r, cfg.state.db.walletTransactions.filter
          (fun r => r.type = .credit ∧ r.transferId = some t.id) = [r] ∧
        r.status = .successful ∧ r.walletId = t.walletId ∧ r.amount = t.amount) ∧
      ∃ e ∈ cfg.state.history, e.verification = some (t.flutterwaveTxRef, .successful)) ∧
    ∀ e ∈ cfg.state.db.webhookEvents, e.status = .processed →
      ∃ t ∈ cfg.state.db.transfers,
        TransferCompleteService.txRef e = some t.flutterwaveTxRef ∧
        ((∃ r, cfg.state.db.walletTransactions.filter
            (fun r => r.type = .credit ∧ r.transferId = some t.id) = [r] ∧
          r.status = .successful) ∨
        ∃ e' ∈ cfg.state.history, e'.verification = some (t.flutterwaveTxRef, .failed)) := by
  obtain ⟨hu, hb, -⟩ := books_of_reachable h
  have hok : World.FundingOk cfg.state := ((funding_certified P config _).inv h).2
  refine ⟨fun t ht hs => ?_, fun e he hs => ?_⟩
  · obtain ⟨hcredited, hverified⟩ := hok.successful t ht hs
    obtain ⟨r, hone, hwallet, hamount, hstatus⟩ := credit_of_linked hu hb ht hcredited.linked
    exact ⟨⟨r, hone, hstatus hcredited, hwallet, hamount⟩, hverified⟩
  · obtain ⟨t, ht, href, hcredited | hfailed⟩ := hok.processed e he hs
    · obtain ⟨r, hone, -, -, hstatus⟩ := credit_of_linked hu hb ht hcredited.linked
      exact ⟨t, ht, href, .inl ⟨r, hone, hstatus hcredited⟩⟩
    · exact ⟨t, ht, href, .inr hfailed⟩

/-- A funding whose payment has been confirmed. -/
theorem settled_states_have_money_schedule :
    ∃ cfg, Machine.replayUnder (requests platform liveConfig) (.initial World.initial)
        (reportedTwice ++ completeTransfer 5 "e1") = some cfg ∧
      (∃ t ∈ cfg.state.db.transfers, t.status = .successful ∧
        ∃ e ∈ cfg.state.history, e.verification = some (t.flutterwaveTxRef, .successful)) ∧
      ∃ e ∈ cfg.state.db.webhookEvents, e.status = .processed ∧
        ∃ t ∈ cfg.state.db.transfers,
          TransferCompleteService.txRef e = some t.flutterwaveTxRef := by
  have hrun : (Machine.replayUnder (requests platform liveConfig) (.initial World.initial)
      (reportedTwice ++ completeTransfer 5 "e1")).any fun cfg =>
        (∃ t ∈ cfg.state.db.transfers, t.status = .successful) ∧
          ∃ e ∈ cfg.state.db.webhookEvents, e.status = .processed := by decide +kernel
  obtain ⟨cfg, hcfg, h⟩ := (Option.any_eq_true ..).mp hrun
  obtain ⟨⟨t, ht, hs⟩, e, he, hprocessed⟩ := of_decide_eq_true h
  obtain ⟨htransfers, hevents⟩ := settled_states_have_money (.replayUnder hcfg)
  obtain ⟨t', ht', href, -⟩ := hevents e he hprocessed
  exact ⟨cfg, hcfg, ⟨t, ht, hs, (htransfers t ht hs).2⟩, e, he, hprocessed, t', ht', href⟩

end Result

end WalletApi
