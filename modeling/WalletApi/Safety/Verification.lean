import WalletApi.Safety.Settlement

/-!
What the provider has to say before a transfer is credited.

The live adapter reads the answer of the verify endpoint and fills in what is
missing: the currency is NGN, the reference is the one that was asked for, and the
amount is 0, which the completion takes for an answer of the mock. So a response
that leaves one of these out is as good as one that confirms the transfer.
-/

namespace WalletApi

open Concurrency ReadCommitted Machine World Schedule

variable {P : Platform} {config : Config} {cfg cfg' : Machine.Config (walletApi P config)} {i : ℕ}

/-! ### The response -/

/-- The data of a response that reports a success. -/
def HttpAnswer.paymentData (answer : HttpAnswer) : Option Json :=
  answer.body.bind { answer with ok := true }.successData

/-- The kobo value of the amount that the data gives. -/
def paidKobo (P : Platform) (data : Json) : Option ℤ :=
  (data.field? "amount").bind fun amount => nairaToKobo (amount.toNumber P)

theorem nairaToKobo_zero : nairaToKobo 0 = some 0 := by decide +kernel

/-- The response says that the transfer has been paid: this payment, this amount, in
this currency. -/
def PaidFor (P : Platform) (t : Transfer) (answer : HttpAnswer) : Prop :=
  ∃ data, answer.paymentData = some data ∧
    Json.lowerOrEmpty P (data.field? "status") = .ok "successful" ∧
    Json.asStr? (data.field? "tx_ref") = some t.flutterwaveTxRef ∧
    Json.asStr? (data.field? "currency") = some t.currency ∧
    paidKobo P data = some t.amount

/-- The response leaves nothing to be filled in: it names the transfer, a currency,
and an amount other than 0. -/
def Complete (P : Platform) (t : Transfer) (answer : HttpAnswer) : Prop :=
  ∃ data, answer.paymentData = some data ∧
    Json.asStr? (data.field? "tx_ref") = some t.flutterwaveTxRef ∧
    (∃ value, data.field? "currency" = some value ∧ value ≠ .null) ∧
    ∃ kobo, paidKobo P data = some kobo ∧ kobo ≠ 0

theorem body_of_json {answer : HttpAnswer} {body : Json} (h : answer.json = .ok body) :
    answer.body = some body := by
  unfold HttpAnswer.json at h
  split at h
  · cases h
  · cases h
  · rename_i hbody
    cases h
    exact hbody

/-- What the adapter makes of the response. -/
theorem verifyByTxRef_successful {txRef : String} {answer : HttpAnswer}
    {verified : VerifyPaymentResult}
    (h : FlutterwavePaymentService.verifyByTxRef P txRef answer = .ok verified)
    (hs : verified.status = .successful) : ∃ data, answer.paymentData = some data ∧
      Json.lowerOrEmpty P (data.field? "status") = .ok "successful" ∧
      verified.amountKobo =
        nairaToKobo ((Json.orElse (data.field? "amount") (.num 0)).toNumber P) ∧
      verified.currency =
        Json.asStr? (some (Json.orElse (data.field? "currency") (.str "NGN"))) := by
  unfold FlutterwavePaymentService.verifyByTxRef at h
  cases hjson : answer.json with
  | error e =>
      rw [hjson] at h
      cases h
  | ok body =>
      rw [hjson] at h
      dsimp only [bind, Except.bind] at h
      have hbody : answer.body = some body := body_of_json hjson
      cases hdata : HttpAnswer.successData { answer with ok := true } body with
      | none =>
          rw [hdata] at h
          cases h
          cases hs
      | some data =>
          rw [hdata] at h
          have hpayment : answer.paymentData = some data := by
            rw [HttpAnswer.paymentData, hbody]
            exact hdata
          cases hlower : Json.lowerOrEmpty P (data.field? "status") with
          | error e =>
              simp only [hlower] at h
              cases h
          | ok flwStatus =>
              simp only [hlower] at h
              cases h
              refine ⟨data, hpayment, ?_, rfl, rfl⟩
              have hsuccessful : flwStatus = "successful" := by
                by_contra hne
                dsimp only at hs
                rw [if_neg hne] at hs
                split at hs
                · cases hs
                · split at hs <;> cases hs
              rw [hlower, hsuccessful]

theorem orElse_some {value default : Json} (h : value ≠ .null) :
    Json.orElse (some value) default = value := by
  cases value with
  | null => exact absurd rfl h
  | _ => rfl

/-- A response that has led to a credit, and is complete, has confirmed the transfer. -/
theorem paidFor_iff_complete {t : Transfer} {answer : HttpAnswer} {txRef : String}
    {verified : VerifyPaymentResult}
    (h : FlutterwavePaymentService.verifyByTxRef P txRef answer = .ok verified)
    (hs : verified.status = .successful)
    (hamount : verified.amountKobo = some 0 ∨ verified.amountKobo = some t.amount)
    (hcurrency : verified.currency = some t.currency) (hpos : 0 < t.amount) :
    PaidFor P t answer ↔ Complete P t answer := by
  obtain ⟨data, hdata, hstatus, hkobo, hgiven⟩ := verifyByTxRef_successful h hs
  constructor
  · rintro ⟨data', hdata', -, href, hcur, hpaid⟩
    cases hdata.symm.trans hdata'
    refine ⟨data, hdata, href, ?_, t.amount, hpaid, hpos.ne'⟩
    cases hfield : data.field? "currency" with
    | none =>
        rw [hfield] at hcur
        cases hcur
    | some value =>
        refine ⟨value, rfl, ?_⟩
        rintro rfl
        rw [hfield] at hcur
        cases hcur
  · rintro ⟨data', hdata', href, ⟨value, hvalue, hnull⟩, kobo, hpaid, hne⟩
    cases hdata.symm.trans hdata'
    refine ⟨data, hdata, hstatus, href, ?_, ?_⟩
    · rw [hvalue, orElse_some hnull, hcurrency] at hgiven
      rw [hvalue, ← hgiven]
    · cases hfield : data.field? "amount" with
      | none =>
          rw [paidKobo, hfield] at hpaid
          cases hpaid
      | some amount =>
          rw [paidKobo, hfield] at hpaid ⊢
          by_cases hnone : amount = .null
          · -- `null` counts as 0.
            have hzero : some kobo = some 0 := by
              rw [← hpaid, hnone, Option.bind_some, Json.toNumber]
              exact nairaToKobo_zero
            exact absurd (Option.some.inj hzero) hne
          · rw [hfield, orElse_some hnone] at hkobo
            have hkobo' : verified.amountKobo = some kobo := hkobo.trans hpaid
            rcases hamount with hzero | hall
            · exact absurd (Option.some.inj (hkobo'.symm.trans hzero)) hne
            · exact hpaid.trans (hkobo'.symm.trans hall)

/-! ### The verification of a run -/

/-- On the way to the configuration the thread has asked for the payment with the
reference, and the response was this one. -/
def Asked (cfg : Machine.Config (walletApi P config)) (i : ℕ) (txRef : String)
    (answer : HttpAnswer) : Prop :=
  ∃ cfg₀ cfg₁ call k ch, Reachable (requests P config) World.initial cfg₀ ∧
    cfg₀.threads i = some (.running call (.op (.verifyByTxRef txRef) k)) ∧
    Machine.next cfg₀ (.step i ch) = some cfg₁ ∧ Run (requests P config) cfg₁ cfg ∧
    Choice.answer ch = answer

/-- With the live adapter a verification that is answered is answered by the response. -/
theorem verify_answer (hlive : config.useMock = false) {txRef : String} {ch : Choice}
    {s t : World} {verified : VerifyPaymentResult}
    (h : World.exec P config i (.verifyByTxRef txRef) ch s = some (.ok verified, t)) :
    FlutterwavePaymentService.verifyByTxRef P txRef ch.answer = .ok verified := by
  rcases World.exec_eq_some h with ⟨-, -, hr, -⟩ | ⟨r', s', hp, hr | ⟨-, -, hr⟩, -⟩
  · cases hr
  · subst hr
    simp only [World.perform, hlive, Bool.false_eq_true, if_false, Option.some.injEq] at hp
    exact (Prod.ext_iff.mp hp).1
  · cases hr

/-- A list in which no verification comes after another has one at most. -/
theorem verify_unique {tr : Trace}
    (h : ∀ new x old, tr = new ++ x :: old → x.cmd.isVerify = true →
      ∀ y ∈ old, y.cmd.isVerify = false)
    {x y : Exchange signature} (hx : x ∈ tr) (hy : y ∈ tr) (hvx : x.cmd.isVerify = true)
    (hvy : y.cmd.isVerify = true) : x = y := by
  obtain ⟨new, old, rfl⟩ := List.append_of_mem hx
  rcases List.mem_append.mp hy with hnew | hold
  · obtain ⟨new₁, new₂, rfl⟩ := List.append_of_mem hnew
    have hnone := h new₁ y (new₂ ++ x :: old) (by simp) hvy x
      (List.mem_append_right _ (.head _))
    rw [hvx] at hnone
    cases hnone
  · rcases List.mem_cons.mp hold with rfl | hold
    · rfl
    · have hnone := h new x old rfl hvx y hold
      rw [hvy] at hnone
      cases hnone

/-- What a thread has found is still there, with the columns it was created with. -/
theorem found_of_log (h : Reachable (requests P config) World.initial cfg) {qy : Query}
    {answer : qy.Result}
    (hmem : (⟨.select .pool qy, .ok answer⟩ : Exchange signature) ∈ own i (World.log cfg.state)) :
    ∃ d : Db, qy.run d = answer ∧ d.Grows (World.db cfg.state) := by
  obtain ⟨e, he, hexchange⟩ := List.mem_map.mp (mem_own.mp hmem)
  obtain ⟨pid, c, r, took⟩ := e
  cases hexchange
  obtain ⟨es, rest, hhistory⟩ := List.append_of_mem he
  obtain ⟨cfg₀, cfg₁, hhappened, hrun, -⟩ := happened_of_reachable h hhistory
  obtain ⟨call, ch, -, hexec⟩ := hhappened.exec
  refine ⟨World.db cfg₁.state, ?_, grows_of_run hrun⟩
  rcases World.exec_eq_some hexec with ⟨-, -, hr, -⟩ | ⟨r', s', hp, hr | ⟨-, -, hr⟩, ht⟩
  · cases hr
  · subst hr
    obtain ⟨hfound, rfl⟩ := Prod.ext_iff.mp (Option.some.inj hp)
    rw [ht]
    exact Except.ok.inj hfound
  · cases hr

/-- The verification by the thread is the one that the credit rests on. -/
theorem Asked.verified (hlive : config.useMock = false)
    (h : Reachable (requests P config) World.initial cfg) {txRef txRef' : String}
    {answer : HttpAnswer} {verified : VerifyPaymentResult} (hasked : Asked cfg i txRef answer)
    (hmem : (⟨.verifyByTxRef txRef', .ok verified⟩ : Exchange signature) ∈
      own i (World.log cfg.state)) :
    FlutterwavePaymentService.verifyByTxRef P txRef answer = .ok verified := by
  obtain ⟨cfg₀, cfg₁, call, k, ch, h₀, hth, hn, hrun, rfl⟩ := hasked
  obtain ⟨call', c, k', r, t, hth', he, rfl⟩ := next_step_iff.mp hn
  cases hth.symm.trans hth'
  obtain ⟨took, hh⟩ := World.exec_history he
  obtain ⟨es, hes⟩ := history_of_run hrun
  have hown : (⟨.verifyByTxRef txRef, r⟩ : Exchange signature) ∈ own i (World.log cfg.state) := by
    refine mem_own.mpr (List.mem_map.mpr ⟨(⟨i, .verifyByTxRef txRef, r, took⟩ : Event), ?_, rfl⟩)
    rw [hes]
    exact List.mem_append_right _ (hh ▸ .head _)
  have F := followed_of_reachable (settlement_justified fun _ h => h) h
  have hsame : (⟨.verifyByTxRef txRef, r⟩ : Exchange signature) =
      ⟨.verifyByTxRef txRef', .ok verified⟩ := by
    refine verify_unique (fun new x old htrace hx => ?_) hown hmem rfl rfl
    obtain ⟨th, -, hd⟩ := F.own_logged htrace
    obtain ⟨c, r⟩ := x
    cases c with
    | verifyByTxRef txRef => exact hd
    | _ => cases hx
  cases hsame
  exact verify_answer hlive he

theorem exists_asked (h : Reachable (requests P config) World.initial cfg) {txRef : String}
    {verified : VerifyPaymentResult}
    (hmem : (⟨.verifyByTxRef txRef, .ok verified⟩ : Exchange signature) ∈
      own i (World.log cfg.state)) : ∃ answer, Asked cfg i txRef answer := by
  obtain ⟨e, he, hexchange⟩ := List.mem_map.mp (mem_own.mp hmem)
  obtain ⟨pid, c, r, took⟩ := e
  cases hexchange
  obtain ⟨es, rest, hhistory⟩ := List.append_of_mem he
  obtain ⟨cfg₀, cfg₁, hhappened, hrun, -⟩ := happened_of_reachable h hhistory
  obtain ⟨call, k, ch, hth, -, -, hn⟩ := hhappened.step
  exact ⟨ch.answer, cfg₀, cfg₁, call, k, ch, hhappened.before, hth, hn, hrun, rfl⟩

/-- The step that makes a pending row successful is the commit of a worker that has
been told that the transfer is paid. -/
theorem confirmed_of_credited {a : Action (walletApi P config)}
    (h : Reachable (requests P config) World.initial cfg) (hp : (requests P config).Permits cfg a)
    (hn : Machine.next cfg a = some cfg') {r r' : WalletTransaction}
    (hr : r ∈ cfg.state.db.walletTransactions) (hpending : r.status = .pending)
    (hr' : r' ∈ cfg'.state.db.walletTransactions) (hid : r'.id = r.id)
    (hs : r'.status = .successful) : ∃ i ch t verified, a = .step i ch ∧
      Confirmed r.id (own i (World.log cfg.state)) t verified := by
  have hu' : Db.Unique (World.db cfg'.state) :=
    ((api_certified P config (fun _ _ _ _ _ => True) .true).inv (.next a h hp hn)).2.1
  have hgone : r ∉ (World.db cfg'.state).walletTransactions := by
    intro hmem
    rw [hu'.row_ext hr' hmem hid, hpending] at hs
    cases hs
  cases a with
  | spawn i call =>
      obtain ⟨-, rfl⟩ := next_spawn_iff.mp hn
      exact absurd hr hgone
  | crash i =>
      obtain ⟨call, p, -, rfl⟩ := next_crash_iff.mp hn
      exact absurd hr hgone
  | step i ch =>
      obtain ⟨call, c, k, answer, t, hth, he, rfl⟩ := next_step_iff.mp hn
      rw [Config.state_set] at hgone
      rcases World.exec_db he with heq | ⟨w, rfl, heq, -⟩ | ⟨rfl, ws, hopen, heq⟩
      · rw [heq] at hgone
        exact absurd hr hgone
      · -- A statement by itself changes no row.
        rw [heq] at hgone
        obtain ⟨status, rfl⟩ := (w.row_apply hr).resolve_left hgone
        have hwrites : call.writes .pool (.updateWalletTransactionStatus r.id status) :=
          footprint_of_thread (fun _ h => h) h hth
        cases call <;> exact hwrites.elim
      · rw [heq] at hgone
        obtain ⟨status, hmem⟩ := (row_applyAll hr).resolve_left hgone
        have F := followed_of_reachable (settlement_justified fun _ h => h) h
        obtain ⟨th, new, tr, -, htrace, t, verified, hconfirmed⟩ :=
          justifiedIn_of_staged F h i ws hopen _ hmem
        exact ⟨i, ch, t, verified, rfl, htrace ▸ hconfirmed.append new⟩

/-- With the live adapter, whatever the verify endpoint answers: a step that makes the
pending row of a transfer successful is taken by a thread that has asked for the
payment of the transfer, and the response has confirmed the payment if and only if
nothing was missing in it. -/
theorem credited_iff_complete {a : Action (walletApi P config)} (hlive : config.useMock = false)
    (h : Reachable (requests P config) World.initial cfg) (hp : (requests P config).Permits cfg a)
    (hn : Machine.next cfg a = some cfg') {r r' : WalletTransaction}
    (hr : r ∈ cfg.state.db.walletTransactions) (hpending : r.status = .pending)
    (hr' : r' ∈ cfg'.state.db.walletTransactions) (hid : r'.id = r.id)
    (hs : r'.status = .successful) :
    ∃ i ch, a = .step i ch ∧ ∃ t ∈ cfg.state.db.transfers, r.transferId = some t.id ∧
      (∃ answer, Asked cfg i t.flutterwaveTxRef answer) ∧
      ∀ txRef answer, Asked cfg i txRef answer → (PaidFor P t answer ↔ Complete P t answer) := by
  obtain ⟨i, ch, t₀, verified, rfl, hconfirmed⟩ :=
    confirmed_of_credited h hp hn hr hpending hr' hid hs
  have hinv := (api_certified P config (fun _ _ _ _ _ => True) .true).inv h
  obtain ⟨d₀, hfound, hgrows⟩ := found_of_log h hconfirmed.lookup
  obtain ⟨t, ht, hcore⟩ := hgrows.transfers t₀ (List.mem_of_find?_eq_some hfound)
  obtain ⟨credits, hlookup, r₀, hr₀, hid₀, hlinked⟩ := hconfirmed.row
  obtain ⟨d₁, hcredits, hgrows₁⟩ := found_of_log h hlookup
  obtain ⟨r₁, hr₁, hcore₁⟩ := hgrows₁.walletTransactions r₀
    ((mem_walletTransactionsByTransferId hcredits).mp hr₀).1
  have hid₁ : r₁.core.id = r₀.core.id := by rw [hcore₁]
  have hid₁' : r₁.id = r₀.id := hid₁
  have hr₁r : r₁ = r := hinv.2.1.row_ext hr₁ hr (hid₁'.trans hid₀)
  subst hr₁r
  have htransferId : r₁.core.transferId = r₀.core.transferId := by rw [hcore₁]
  have htransferId' : r₁.transferId = r₀.transferId := htransferId
  have htid : t.core.id = t₀.core.id := by rw [hcore]
  have hamount : t.core.amount = t₀.core.amount := by rw [hcore]
  have hcurrency : t.core.currency = t₀.core.currency := by rw [hcore]
  have href : t.core.flutterwaveTxRef = t₀.core.flutterwaveTxRef := by rw [hcore]
  have href' : t.flutterwaveTxRef = t₀.flutterwaveTxRef := href
  refine ⟨i, ch, rfl, t, ht, ?_, ?_, fun txRef answer hasked => ?_⟩
  · rw [htransferId', hlinked]
    exact congrArg some htid.symm
  · rw [href']
    exact exists_asked h hconfirmed.verify
  · refine paidFor_iff_complete (hasked.verified hlive h hconfirmed.verify) hconfirmed.status
      ?_ ?_ (hinv.2.2.2.1.transfer t ht).amount
    · have hamount' : t.amount = t₀.amount := hamount
      rw [hamount']
      exact hconfirmed.amount
    · exact hconfirmed.currency.trans (congrArg some hcurrency.symm)

/-! ### Two responses -/

/-- The reference that the thread is about to ask for. -/
def asksFor (cfg : Machine.Config (walletApi P config)) (i : ℕ) : Option String :=
  match cfg.threads i with
  | some (.running _ (.op (.verifyByTxRef txRef) _)) => some txRef
  | _ => none

theorem threads_of_asksFor {txRef : String} (h : asksFor cfg i = some txRef) :
    ∃ call k, cfg.threads i = some (.running call (.op (.verifyByTxRef txRef) k)) := by
  unfold asksFor at h
  split at h
  · rename_i call txRef' k hth
    cases h
    exact ⟨call, k, hth⟩
  · cases h

/-- A worker is about to ask the provider for Ada's payment of 1000 kobo. -/
def beforeVerification : List (Action (walletApi platform liveConfig)) :=
  register 0 "ada" "u1" "w1" ++ createPin 1 "u1" ++ postTransfer 2 "u1" ++
    webhook 3 "u1" "1" "e1" ++
    .spawn 5 .transferCompleteWorker :: generate 5 ["transfer-complete-e1"] ++ calm 5 2

/-- In the step to `cfg'` the worker makes the credit of the transfer successful, after
it has been given the response. -/
structure CreditedAfter (answer : HttpAnswer) (t : Transfer)
    (cfg cfg' : Machine.Config (walletApi platform liveConfig)) : Prop where
  reachable : Reachable (requests platform liveConfig) World.initial cfg
  next : Machine.next cfg (.step 5 {}) = some cfg'
  transfer : t ∈ (World.db cfg.state).transfers
  asked : Asked cfg 5 t.flutterwaveTxRef answer
  credit : ∃ r ∈ (World.db cfg.state).walletTransactions, r.status = .pending ∧
    r.transferId = some t.id ∧ ∃ r' ∈ (World.db cfg'.state).walletTransactions,
      r'.id = r.id ∧ r'.status = .successful

/-- The response leads to the credit. -/
def credits (answer : HttpAnswer) : Bool :=
  (Machine.replayUnder (requests platform liveConfig) (.initial World.initial)
    beforeVerification).any fun cfg₀ =>
      (Machine.replayUnder (requests platform liveConfig) cfg₀ [.step 5 { answer }]).any fun cfg₁ =>
        (Machine.replayUnder (requests platform liveConfig) cfg₁ (calm 5 7)).any fun cfg =>
          (Machine.replayUnder (requests platform liveConfig) cfg [.step 5 {}]).any fun cfg' =>
            ∃ t ∈ cfg.state.db.transfers, asksFor cfg₀ 5 = some t.flutterwaveTxRef ∧
              t.flutterwaveTxRef = "fund_u1_f" ∧ t.currency = "NGN" ∧
              ∃ r ∈ cfg.state.db.walletTransactions, r.status = .pending ∧
                r.transferId = some t.id ∧ ∃ r' ∈ cfg'.state.db.walletTransactions,
                  r'.id = r.id ∧ r'.status = .successful

theorem creditedAfter_of_credits {answer : HttpAnswer} (h : credits answer = true) :
    ∃ t cfg cfg', t.flutterwaveTxRef = "fund_u1_f" ∧ t.currency = "NGN" ∧
      CreditedAfter answer t cfg cfg' := by
  obtain ⟨cfg₀, h₀, h⟩ := (Option.any_eq_true ..).mp h
  obtain ⟨cfg₁, h₁, h⟩ := (Option.any_eq_true ..).mp h
  obtain ⟨cfg, hcfg, h⟩ := (Option.any_eq_true ..).mp h
  obtain ⟨cfg', hcfg', h⟩ := (Option.any_eq_true ..).mp h
  obtain ⟨t, ht, hasks, href, hcurrency, hcredit⟩ := of_decide_eq_true h
  obtain ⟨call, k, hth⟩ := threads_of_asksFor hasks
  have hrun := Run.replayUnder hcfg
  exact ⟨t, cfg, cfg', href, hcurrency, {
    reachable := ((Reachable.replayUnder h₀).run (.replayUnder h₁)).run hrun
    next := (replayUnder_single hcfg').2
    transfer := ht
    asked := ⟨cfg₀, cfg₁, call, k, { answer }, .replayUnder h₀, hth, (replayUnder_single h₁).2,
      hrun, rfl⟩
    credit := hcredit }⟩

/-- The provider confirms the payment of the transfer. -/
def confirmation : HttpAnswer where
  body := some (.obj [("status", .str "success"), ("data", .obj [
    ("status", .str "Successful"), ("tx_ref", .str "fund_u1_f"), ("currency", .str "NGN"),
    ("amount", .num 10)])])

theorem credited_iff_complete_schedule :
    ∃ t cfg cfg', CreditedAfter confirmation t cfg cfg' ∧ PaidFor platform t confirmation := by
  have hcredits : credits confirmation = true := by decide +kernel
  obtain ⟨t, cfg, cfg', href, hcurrency, hafter⟩ := creditedAfter_of_credits hcredits
  obtain ⟨r, hr, hpending, hlinked, r', hr', hid, hs⟩ := hafter.credit
  have hpermits : (requests platform liveConfig).Permits cfg (.step 5 {}) :=
    fun _ _ _ _ => trivial
  obtain ⟨i, ch, ha, t', ht', hlinked', -, hiff⟩ := credited_iff_complete rfl hafter.reachable
    hpermits hafter.next hr hpending hr' hid hs
  cases ha
  have hu : Db.Unique (World.db cfg.state) :=
    ((api_certified platform liveConfig (fun _ _ _ _ _ => True) .true).inv hafter.reachable).2.1
  cases hu.transfer_ext hafter.transfer ht' (Option.some.inj (hlinked.symm.trans hlinked'))
  refine ⟨t, cfg, cfg', hafter, (hiff _ _ hafter.asked).mpr ?_⟩
  refine ⟨_, rfl, ?_, ⟨_, rfl, nofun⟩, 1000, by decide +kernel, by decide⟩
  rw [href]
  rfl

/-- A response that says nothing but that some payment was successful. -/
def bareConfirmation : HttpAnswer where
  body := some (.obj [("status", .str "success"), ("data", .obj [("status", .str "successful")])])

/-- The bare response is enough for a credit of the whole amount. -/
theorem bare_confirmation_credits :
    ∃ t cfg cfg', CreditedAfter bareConfirmation t cfg cfg' ∧
      ¬PaidFor platform t bareConfirmation := by
  have hcredits : credits bareConfirmation = true := by decide +kernel
  obtain ⟨t, cfg, cfg', -, -, hafter⟩ := creditedAfter_of_credits hcredits
  refine ⟨t, cfg, cfg', hafter, ?_⟩
  rintro ⟨data, hdata, -, -, -, hpaid⟩
  cases hdata
  cases hpaid

end WalletApi
