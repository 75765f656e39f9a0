import WalletApi.Safety.Bank

/-!
No refund of a payout that went out.

The provider answers a repeated reference with a body that does not report
success, and the adapter turns every such body into `FAILED`, upon which the
payout worker gives the withdrawal back. An execution that asks again, because
the answer to an earlier request was lost or a later step failed, therefore
refunds a transfer that the provider has taken on. A run shows this. As long as
no such request is answered, a withdrawal is given back only if the provider has
no transfer for it that it might still execute.
-/

namespace WalletApi

open Concurrency World Policy Schedule WithdrawalPayoutService

variable {P : Platform} {config : Config} {i : ℕ} {c : Cmd} {ch : Choice} {s t : World}
  {w : Withdrawal}

/-! ### The live provider -/

/-- The answer does not report success. -/
def HttpAnswer.declines (answer : HttpAnswer) : Bool :=
  match answer.json with
  | .ok body => (answer.successData body).isNone
  | .error _ => true

/-- The answer has a body that can be read. -/
def HttpAnswer.readable (answer : HttpAnswer) : Bool :=
  match answer.json with
  | .ok _ => true
  | .error _ => false

/-- The adapter reads nothing untrue in the answer to a request that was taken on
under the id, or not at all: neither that it failed while it was taken on, nor the id
of a transfer that is not the one taken on. -/
def HttpAnswer.truthful (P : Platform) (answer : HttpAnswer) (takenOn : Option String) : Bool :=
  match FlutterwavePaymentService.initiateBankTransfer P answer with
  | .ok r =>
      if r.status = .failed then takenOn.isNone
      else r.transferId.all fun id => takenOn = some id
  | .error _ => true

/-- The provider takes a reference on at most once, under a new id; it answers a
repeated one with a body that does not report success, and every other one as it
likes as long as it is the truth. It reports only failed transfers as failed. -/
def providerAnswers (P : Platform) (c : Cmd) (ch : Choice) (s : World) : Bool :=
  match c with
  | .initiateBankTransfer params =>
      if s.bank.received.any (·.reference = params.reference) then
        !ch.accepts && ch.answer.declines
      else if ch.accepts then
        !(s.bank.transfers.any (·.id = ch.text)) && ch.answer.truthful P (some ch.text)
      else ch.answer.truthful P none
  | .getBankTransferStatus id =>
      match FlutterwavePaymentService.getBankTransferStatus P id ch.answer with
      | .ok r => decide (r.status ≠ .failed) ||
          s.bank.transfers.any fun x => x.id = id ∧ x.state = .failed
      | .error _ => true
  | _ => true

/-- No request is answered for a reference that the provider has taken on and not
failed. -/
def asksOnce (c : Cmd) (ch : Choice) (s : World) : Bool :=
  match c with
  | .initiateBankTransfer params =>
      decide (ch.fault ≠ .none) || !ch.answer.readable ||
        s.bank.transfers.all fun x => x.params.reference = params.reference → x.state = .failed
  | _ => true

def LiveProvider (P : Platform) (_ : Call) (_ : ℕ) (c : Cmd) (ch : Choice) (s : World) : Prop :=
  providerAnswers P c ch s = true

/-- The runs in which no second request is answered. -/
def AskedOnce (P : Platform) (call : Call) (i : ℕ) (c : Cmd) (ch : Choice) (s : World) : Prop :=
  LiveProvider P call i c ch s ∧ asksOnce c ch s = true

instance : ∀ call i c ch s, Decidable (LiveProvider P call i c ch s) :=
  fun _ _ c ch s => inferInstanceAs (Decidable (providerAnswers P c ch s = true))

instance : ∀ call i c ch s, Decidable (AskedOnce P call i c ch s) :=
  fun _ _ c ch s =>
    inferInstanceAs (Decidable (providerAnswers P c ch s = true ∧ asksOnce c ch s = true))

/-! ### What the history says about the provider -/

namespace World

structure Truthful (s : World) : Prop where
  received : ∀ x ∈ s.bank.transfers, ∃ p ∈ s.bank.received, p.reference = x.params.reference
  id : ∀ x ∈ s.bank.transfers, ∀ y ∈ s.bank.transfers, x.id = y.id → x = y
  reference : ∀ x ∈ s.bank.transfers, ∀ y ∈ s.bank.transfers,
    x.params.reference = y.params.reference → x = y
  /-- A reference that was declined is not taken on any more. -/
  declined : ∀ e ∈ s.history, ∀ params r, e.reply = some (params, r) → r.status = .failed →
    (∃ p ∈ s.bank.received, p.reference = params.reference) ∧
      ∀ x ∈ s.bank.transfers, x.params.reference = params.reference → x.state = .failed
  accepted : ∀ e ∈ s.history, ∀ params r id, e.reply = some (params, r) → r.status ≠ .failed →
    r.transferId = some id → ∃ x ∈ s.bank.transfers, x.id = id ∧ x.params = params
  reported : ∀ e ∈ s.history, ∀ id r, e.report = some (id, r) → r.status = .failed →
    ∃ x ∈ s.bank.transfers, x.id = id ∧ x.state = .failed

theorem Truthful.initial : World.initial.Truthful where
  received _ hx := absurd hx List.not_mem_nil
  id _ hx := absurd hx List.not_mem_nil
  reference _ hx := absurd hx List.not_mem_nil
  declined _ he := absurd he List.not_mem_nil
  accepted _ he := absurd he List.not_mem_nil
  reported _ he := absurd he List.not_mem_nil

/-- A step that leaves the books of the provider alone and brings no news about a
request. -/
theorem Truthful.same (h : s.Truthful) (hb : t.bank = s.bank) {e : Event}
    (hh : t.history = e :: s.history) (hreply : e.reply = none)
    (hreport : ∀ id r, e.report = some (id, r) → r.status = .failed →
      ∃ x ∈ s.bank.transfers, x.id = id ∧ x.state = .failed) : t.Truthful where
  received := hb ▸ h.received
  id := hb ▸ h.id
  reference := hb ▸ h.reference
  declined e' he' params r hr hs := by
    rw [hh] at he'
    rw [hb]
    rcases List.mem_cons.mp he' with rfl | hold
    · cases hreply.symm.trans hr
    · exact h.declined e' hold params r hr hs
  accepted e' he' params r id hr hs hid := by
    rw [hh] at he'
    rw [hb]
    rcases List.mem_cons.mp he' with rfl | hold
    · cases hreply.symm.trans hr
    · exact h.accepted e' hold params r id hr hs hid
  reported e' he' id r hr hs := by
    rw [hh] at he'
    rw [hb]
    rcases List.mem_cons.mp he' with rfl | hold
    · exact hreport id r hr hs
    · exact h.reported e' hold id r hr hs

/-- The transfer as the end of another one, or its own, leaves it. -/
def finished (id : String) (state : BankTransferState) (x : BankTransfer) : BankTransfer :=
  if x.id = id ∧ x.state = .pending then { x with state } else x

theorem finished_id (id : String) (state : BankTransferState) (x : BankTransfer) :
    (finished id state x).id = x.id := by
  unfold finished
  split <;> rfl

theorem finished_params (id : String) (state : BankTransferState) (x : BankTransfer) :
    (finished id state x).params = x.params := by
  unfold finished
  split <;> rfl

theorem finished_failed {id : String} {state : BankTransferState} {x : BankTransfer}
    (hx : x.state = .failed) : (finished id state x).state = .failed := by
  rw [finished, if_neg, hx]
  rintro ⟨-, hpending⟩
  cases hx.symm.trans hpending

theorem Truthful.finish (h : s.Truthful) {id : String} {state : BankTransferState} {e : Event}
    (hb : t.bank = (s.finishBankTransfer id state).bank) (hh : t.history = e :: s.history)
    (hreply : e.reply = none) (hreport : e.report = none) : t.Truthful := by
  have hreceived : t.bank.received = s.bank.received := by rw [hb]; rfl
  have htransfers : t.bank.transfers = s.bank.transfers.map (finished id state) := by rw [hb]; rfl
  have old {e' : Event} {α : Type} {f : Event → Option α} {a : α} (hnone : f e = none)
      (he' : e' ∈ t.history) (ha : f e' = some a) : e' ∈ s.history := by
    rw [hh] at he'
    rcases List.mem_cons.mp he' with rfl | hold
    · cases hnone.symm.trans ha
    · exact hold
  refine ⟨?_, ?_, ?_, ?_, ?_, ?_⟩
  · intro y hy
    rw [htransfers] at hy
    obtain ⟨x, hx, rfl⟩ := List.mem_map.mp hy
    rw [hreceived, finished_params]
    exact h.received x hx
  · intro y hy y' hy' heq
    rw [htransfers] at hy hy'
    obtain ⟨x, hx, rfl⟩ := List.mem_map.mp hy
    obtain ⟨x', hx', rfl⟩ := List.mem_map.mp hy'
    rw [finished_id, finished_id] at heq
    rw [h.id x hx x' hx' heq]
  · intro y hy y' hy' heq
    rw [htransfers] at hy hy'
    obtain ⟨x, hx, rfl⟩ := List.mem_map.mp hy
    obtain ⟨x', hx', rfl⟩ := List.mem_map.mp hy'
    rw [finished_params, finished_params] at heq
    rw [h.reference x hx x' hx' heq]
  · intro e' he' params r hr hs
    obtain ⟨hasked, hfailed⟩ := h.declined e' (old hreply he' hr) params r hr hs
    refine ⟨hreceived ▸ hasked, fun y hy href => ?_⟩
    rw [htransfers] at hy
    obtain ⟨x, hx, rfl⟩ := List.mem_map.mp hy
    rw [finished_params] at href
    exact finished_failed (hfailed x hx href)
  · intro e' he' params r id' hr hs hid
    obtain ⟨x, hx, hxid, hparams⟩ := h.accepted e' (old hreply he' hr) params r id' hr hs hid
    refine ⟨_, htransfers ▸ List.mem_map_of_mem hx, ?_, ?_⟩
    · rw [finished_id, hxid]
    · rw [finished_params, hparams]
  · intro e' he' id' r hr hs
    obtain ⟨x, hx, hxid, hfailed⟩ := h.reported e' (old hreport he' hr) id' r hr hs
    exact ⟨_, htransfers ▸ List.mem_map_of_mem hx, (finished_id ..).trans hxid,
      finished_failed hfailed⟩

/-! ### Requests to the live provider -/

/-- A request does not arrive, or it arrives and what is answered, if anything, is
made of the answer of the provider. -/
theorem exec_initiateBankTransfer (hlive : config.useMock = false)
    {params : InitiateBankTransferParams} {r : Except Err InitiateBankTransferResult}
    (h : exec P config i (.initiateBankTransfer params) ch s = some (r, t)) :
    (t.bank = s.bank ∧ ∀ a, r ≠ .ok a) ∨
      t.bank = (s.receiveBankTransfer params ch).bank ∧ ∀ a, r = .ok a →
        ch.fault = .none ∧ FlutterwavePaymentService.initiateBankTransfer P ch.answer = .ok a := by
  rcases exec_eq_some h with ⟨-, -, rfl, rfl⟩ | ⟨r', s', hp, hr, rfl⟩
  · exact .inl ⟨rfl, nofun⟩
  · simp only [perform, hlive, Bool.false_eq_true, if_false, Option.some.injEq] at hp
    cases hp
    refine .inr ⟨rfl, ?_⟩
    rintro a rfl
    refine ⟨fault_of_exec_ok (by rw [Cmd.fallible, hlive]; rfl) h, ?_⟩
    rcases hr with hr | ⟨-, -, hr⟩
    · exact hr.symm
    · cases hr

theorem exec_getBankTransferStatus (hlive : config.useMock = false) {id : String}
    {a : BankTransferStatusResult}
    (h : exec P config i (.getBankTransferStatus id) ch s = some (.ok a, t)) :
    FlutterwavePaymentService.getBankTransferStatus P id ch.answer = .ok a := by
  rcases exec_eq_some h with ⟨-, -, hr, -⟩ | ⟨r', s', hp, hr, rfl⟩
  · cases hr
  · simp only [perform, hlive, Bool.false_eq_true, if_false, Option.some.injEq] at hp
    cases hp
    rcases hr with hr | ⟨-, -, hr⟩
    · exact hr.symm
    · cases hr

end World

/-- What the adapter makes of an answer that does not report success. -/
theorem HttpAnswer.status_of_declines {answer : HttpAnswer} {a : InitiateBankTransferResult}
    (hdeclines : answer.declines = true)
    (h : FlutterwavePaymentService.initiateBankTransfer P answer = .ok a) : a.status = .failed := by
  unfold declines at hdeclines
  unfold FlutterwavePaymentService.initiateBankTransfer at h
  cases hjson : answer.json with
  | error e =>
      rw [hjson] at h
      cases h
  | ok body =>
      rw [hjson] at h hdeclines
      dsimp only at hdeclines
      have hnone : answer.successData body = none := Option.isNone_iff_eq_none.mp hdeclines
      simp only [bind, Except.bind, hnone] at h
      cases h
      rfl

theorem HttpAnswer.readable_of_ok {answer : HttpAnswer} {a : InitiateBankTransferResult}
    (h : FlutterwavePaymentService.initiateBankTransfer P answer = .ok a) :
    answer.readable = true := by
  unfold FlutterwavePaymentService.initiateBankTransfer at h
  unfold readable
  cases hjson : answer.json with
  | error e =>
      rw [hjson] at h
      cases h
  | ok body => rfl

theorem HttpAnswer.takenOn_of_truthful {answer : HttpAnswer} {id : String}
    {a : InitiateBankTransferResult} (htrue : answer.truthful P (some id) = true)
    (h : FlutterwavePaymentService.initiateBankTransfer P answer = .ok a) :
    a.status ≠ .failed ∧ ∀ id', a.transferId = some id' → id' = id := by
  unfold truthful at htrue
  rw [h] at htrue
  dsimp only at htrue
  split at htrue
  · cases htrue
  · rename_i hstatus
    refine ⟨hstatus, fun id' hid => ?_⟩
    rw [hid, Option.all_some, decide_eq_true_eq] at htrue
    exact (Option.some.inj htrue).symm

theorem HttpAnswer.turnedDown_of_truthful {answer : HttpAnswer}
    {a : InitiateBankTransferResult} (htrue : answer.truthful P none = true)
    (h : FlutterwavePaymentService.initiateBankTransfer P answer = .ok a) :
    a.status = .failed ∨ a.transferId = none := by
  unfold truthful at htrue
  rw [h] at htrue
  dsimp only at htrue
  split at htrue
  · exact .inl ‹_›
  · cases hid : a.transferId with
    | none => exact .inr rfl
    | some id' =>
        rw [hid, Option.all_some, decide_eq_true_eq] at htrue
        cases htrue

/-! ### One step -/

/-- A request that is taken on is new to the provider, and gets the truth. -/
theorem providerAnswers_accepts {params : InitiateBankTransferParams} (haccepts : ch.accepts = true)
    (h : providerAnswers P (.initiateBankTransfer params) ch s = true) :
    (∀ p ∈ s.bank.received, p.reference ≠ params.reference) ∧
      (∀ x ∈ s.bank.transfers, x.id ≠ ch.text) ∧ ch.answer.truthful P (some ch.text) = true := by
  simp only [providerAnswers, haccepts, Bool.not_true, Bool.false_and, if_true] at h
  split at h
  · cases h
  · rename_i hnew
    rw [Bool.and_eq_true, Bool.not_eq_true'] at h
    exact ⟨by simpa using hnew, by simpa using h.1, h.2⟩

/-- What the adapter reads in the answer to a request that is not taken on. -/
theorem providerAnswers_refuses {params : InitiateBankTransferParams}
    {a : InitiateBankTransferResult} (haccepts : ch.accepts = false)
    (h : providerAnswers P (.initiateBankTransfer params) ch s = true)
    (ha : FlutterwavePaymentService.initiateBankTransfer P ch.answer = .ok a) :
    a.status = .failed ∨ a.transferId = none := by
  simp only [providerAnswers, haccepts, Bool.not_false, Bool.true_and, Bool.false_eq_true,
    if_false] at h
  split at h
  · exact .inl (HttpAnswer.status_of_declines h ha)
  · exact HttpAnswer.turnedDown_of_truthful h ha

namespace World

section Receive

variable {params : InitiateBankTransferParams} {r : Except Err InitiateBankTransferResult}
  {took : Bool}

/-- The provider takes a new reference on, under a new id, and says so. -/
theorem Truthful.takeOn (h : s.Truthful) {id : String}
    (hreceived : t.bank.received = params :: s.bank.received)
    (htransfers : t.bank.transfers = s.bank.transfers ++ [⟨id, params, .pending⟩])
    (hh : t.history = ⟨i, .initiateBankTransfer params, r, took⟩ :: s.history)
    (hreference : ∀ p ∈ s.bank.received, p.reference ≠ params.reference)
    (hid : ∀ x ∈ s.bank.transfers, x.id ≠ id)
    (hanswer : ∀ a, r = .ok a →
      a.status ≠ .failed ∧ ∀ id', a.transferId = some id' → id' = id) : t.Truthful := by
  have hfresh : ∀ x ∈ s.bank.transfers, x.params.reference ≠ params.reference := by
    intro x hx href
    obtain ⟨p, hp, hpx⟩ := h.received x hx
    exact hreference p hp (hpx.trans href)
  have kept {x : BankTransfer} (hx : x ∈ s.bank.transfers) : x ∈ t.bank.transfers :=
    htransfers ▸ List.mem_append_left _ hx
  have split {x : BankTransfer} (hx : x ∈ t.bank.transfers) :
      x ∈ s.bank.transfers ∨ x = ⟨id, params, .pending⟩ := by
    rw [htransfers] at hx
    exact (List.mem_append.mp hx).imp_right List.mem_singleton.mp
  refine ⟨?_, ?_, ?_, ?_, ?_, ?_⟩
  · intro x hx
    rw [hreceived]
    rcases split hx with hold | rfl
    · obtain ⟨p, hp, hpx⟩ := h.received x hold
      exact ⟨p, .tail _ hp, hpx⟩
    · exact ⟨params, .head _, rfl⟩
  · intro x hx y hy hxy
    rcases split hx with hx | rfl
    · rcases split hy with hy | rfl
      · exact h.id x hx y hy hxy
      · exact absurd hxy (hid x hx)
    · rcases split hy with hy | rfl
      · exact absurd hxy.symm (hid y hy)
      · rfl
  · intro x hx y hy hxy
    rcases split hx with hx | rfl
    · rcases split hy with hy | rfl
      · exact h.reference x hx y hy hxy
      · exact absurd hxy (hfresh x hx)
    · rcases split hy with hy | rfl
      · exact absurd hxy.symm (hfresh y hy)
      · rfl
  · intro e he params' a hreply hfailed
    rw [hh] at he
    rcases List.mem_cons.mp he with rfl | hold
    · cases r with
      | ok b =>
          cases hreply
          exact absurd hfailed (hanswer _ rfl).1
      | error e => cases hreply
    · obtain ⟨⟨p, hp, hpx⟩, hall⟩ := h.declined e hold params' a hreply hfailed
      refine ⟨⟨p, hreceived ▸ .tail _ hp, hpx⟩, fun x hx href => ?_⟩
      rcases split hx with hx | rfl
      · exact hall x hx href
      · exact absurd (hpx.trans href.symm) (hreference p hp)
  · intro e he params' a id' hreply hnot hid'
    rw [hh] at he
    rcases List.mem_cons.mp he with rfl | hold
    · cases r with
      | ok b =>
          cases hreply
          have hsame : id' = id := (hanswer _ rfl).2 id' hid'
          exact ⟨_, htransfers ▸ List.mem_append_right _ (.head _), hsame.symm, rfl⟩
      | error e => cases hreply
    · obtain ⟨x, hx, hxid⟩ := h.accepted e hold params' a id' hreply hnot hid'
      exact ⟨x, kept hx, hxid⟩
  · intro e he id' a hreport hfailed
    rw [hh] at he
    rcases List.mem_cons.mp he with rfl | hold
    · cases hreport
    · obtain ⟨x, hx, hxid⟩ := h.reported e hold id' a hreport hfailed
      exact ⟨x, kept hx, hxid⟩

/-- The provider turns a request down, and has no transfer left to execute for it. -/
theorem Truthful.turnDown (h : s.Truthful)
    (hreceived : t.bank.received = params :: s.bank.received)
    (htransfers : t.bank.transfers = s.bank.transfers)
    (hh : t.history = ⟨i, .initiateBankTransfer params, r, took⟩ :: s.history)
    (hnews : ∀ a, r = .ok a → a.status = .failed ∨ a.transferId = none)
    (hfailed : ∀ a, r = .ok a →
      ∀ x ∈ s.bank.transfers, x.params.reference = params.reference → x.state = .failed) :
    t.Truthful := by
  refine ⟨?_, ?_, ?_, ?_, ?_, ?_⟩
  · intro x hx
    rw [htransfers] at hx
    obtain ⟨p, hp, hpx⟩ := h.received x hx
    exact ⟨p, hreceived ▸ .tail _ hp, hpx⟩
  · exact htransfers ▸ h.id
  · exact htransfers ▸ h.reference
  · intro e he params' a hreply hstatus
    rw [hh] at he
    rw [hreceived, htransfers]
    rcases List.mem_cons.mp he with rfl | hold
    · cases r with
      | ok b =>
          cases hreply
          exact ⟨⟨params, .head _, rfl⟩, hfailed _ rfl⟩
      | error e => cases hreply
    · obtain ⟨⟨p, hp, hpx⟩, hall⟩ := h.declined e hold params' a hreply hstatus
      exact ⟨⟨p, .tail _ hp, hpx⟩, hall⟩
  · intro e he params' a id hreply hnot hid
    rw [hh] at he
    rw [htransfers]
    rcases List.mem_cons.mp he with rfl | hold
    · cases r with
      | ok b =>
          cases hreply
          rcases hnews _ rfl with hstatus | hnone
          · exact absurd hstatus hnot
          · cases hnone.symm.trans hid
      | error e => cases hreply
    · exact h.accepted e hold params' a id hreply hnot hid
  · intro e he id a hreport hfailed
    rw [hh] at he
    rw [htransfers]
    rcases List.mem_cons.mp he with rfl | hold
    · cases hreport
    · exact h.reported e hold id a hreport hfailed

end Receive

theorem Truthful.step (h : s.Truthful) (hlive : config.useMock = false) {call : Call}
    (hallows : AskedOnce P call i c ch s) {r : Except Err c.Resp}
    (he : exec P config i c ch s = some (r, t)) : t.Truthful := by
  obtain ⟨hprovider, honce⟩ := hallows
  have hprovider : providerAnswers P c ch s = true := hprovider
  obtain ⟨took, hh⟩ := exec_history he
  cases c with
  | initiateBankTransfer params =>
      rcases exec_initiateBankTransfer hlive he with ⟨hb, hnone⟩ | ⟨hb, hanswer⟩
      · refine h.same hb hh ?_ fun _ _ hreport _ => by cases hreport
        cases r with
        | ok a => exact absurd rfl (hnone a)
        | error e => rfl
      have hreceived : t.bank.received = params :: s.bank.received := by rw [hb]; rfl
      cases haccepts : ch.accepts with
      | true =>
          have htransfers : t.bank.transfers =
              s.bank.transfers ++ [⟨ch.text, params, .pending⟩] := by
            rw [hb, receiveBankTransfer, haccepts]
            rfl
          obtain ⟨hreference, hid, htrue⟩ := providerAnswers_accepts haccepts hprovider
          exact h.takeOn hreceived htransfers hh hreference hid
            fun a ha => HttpAnswer.takenOn_of_truthful htrue (hanswer a ha).2
      | false =>
          have htransfers : t.bank.transfers = s.bank.transfers := by
            rw [hb, receiveBankTransfer, haccepts]
            rfl
          refine h.turnDown hreceived htransfers hh
            (fun a ha => providerAnswers_refuses haccepts hprovider (hanswer a ha).2)
            fun a ha => ?_
          obtain ⟨hfault, ha'⟩ := hanswer a ha
          have hreadable := HttpAnswer.readable_of_ok ha'
          simp only [asksOnce, hfault, hreadable, ne_eq, not_true_eq_false, decide_false,
            Bool.not_true, Bool.false_or, List.all_eq_true, decide_eq_true_eq] at honce
          exact honce
  | getBankTransferStatus id =>
      have hb : t.bank = s.bank := by
        rcases exec_bank he with hb | ⟨_, hc, -⟩ | ⟨_, _, hc, -⟩
        · exact hb
        · cases hc
        · cases hc
      refine h.same hb hh rfl fun id' a hreport hfailed => ?_
      cases r with
      | error e => cases hreport
      | ok b =>
          cases hreport
          simp only [providerAnswers, exec_getBankTransferStatus hlive he, hfailed, ne_eq,
            not_true_eq_false, decide_false, Bool.false_or, List.any_eq_true,
            decide_eq_true_eq] at hprovider
          exact hprovider
  | finishBankTransfer id state =>
      rcases exec_bank he with hb | ⟨_, hc, -⟩ | ⟨_, _, hc, hb⟩
      · exact h.same hb hh rfl fun _ _ hreport _ => by cases hreport
      · cases hc
      · cases hc
        exact h.finish hb hh rfl rfl
  | _ =>
      rcases exec_bank he with hb | ⟨_, hc, -⟩ | ⟨_, _, hc, -⟩
      · exact h.same hb hh rfl fun _ _ hreport _ => by cases hreport
      · cases hc
      · cases hc

/-- What has been given back is not paid out any more. -/
def NotPaidTwice (s : World) : Prop :=
  ∀ r ∈ s.db.walletTransactions, r.purpose = .reversal → ∀ w ∈ s.db.withdrawals,
    r.withdrawalId = some w.id → ∀ x ∈ s.bank.transfers,
      x.params.reference = (bankTransferParams w).reference → x.state = .failed

theorem notPaidTwice_of_truthful (hrec : s.Recorded) (h : s.Truthful) : s.NotPaidTwice := by
  intro r hr hp w hw hid x hx href
  rcases hrec.reversal r hr hp w hw hid with ⟨e, he, a, hreply, hfailed⟩ |
    ⟨id, ⟨e, he, a, hreply, hnot, hid'⟩, e', he', b, hreport, hfailed⟩
  · exact (h.declined e he _ a hreply hfailed).2 x hx href
  · obtain ⟨y, hy, hyid, hparams⟩ := h.accepted e he _ a id hreply hnot hid'
    obtain ⟨z, hz, hzid, hstate⟩ := h.reported e' he' id b hreport hfailed
    have hyz : y = z := h.id y hy z hz (hyid.trans hzid.symm)
    have hxy : x = y := h.reference x hx y hy (href.trans (by rw [hparams]))
    rw [hxy, hyz]
    exact hstate

end World

/-- As long as the provider answers no request for a transfer that it has already
taken on, a withdrawal is given back only if its transfer has failed. -/
theorem notPaidTwice (hlive : config.useMock = false)
    {cfg : Machine.Config (walletApi P config)}
    (h : Machine.Reachable (api P config (AskedOnce P)) World.initial cfg) :
    cfg.state.NotPaidTwice := by
  have hrec : cfg.state.Recorded := ((api_certified P config _ .true).inv h).2.2.2.2
  have htruthful : cfg.state.Truthful :=
    Machine.Reachable.invariant (I := World.Truthful) .initial
      (fun hallows he hs => hs.step hlive hallows he)
      (fun hs => { hs with }) h
  exact World.notPaidTwice_of_truthful hrec htruthful

/-! ### Two runs -/

/-- The provider turns the request of a worker down, which gives the withdrawal back. -/
def refund (i : ℕ) : List (Machine.Action (walletApi platform liveConfig)) :=
  askProvider i "x1" refuses ++ calm i 5 ++ generate i ["r3"] ++ calm i 5

theorem notPaidTwice_schedule :
    ∃ cfg, Machine.Reachable (api platform liveConfig (AskedOnce platform)) World.initial cfg ∧
      (∃ r ∈ cfg.state.db.walletTransactions, r.purpose = .reversal) ∧
      cfg.state.NotPaidTwice := by
  have hrun : (Machine.replayUnder (api platform liveConfig (AskedOnce platform))
      (.initial World.initial)
      (fundedAda ++ payToBank 6 idempotencyKey "uuid" "x1" "r2" ++ refund 7)).any fun cfg =>
        ∃ r ∈ cfg.state.db.walletTransactions, r.purpose = .reversal := by decide +kernel
  obtain ⟨cfg, hcfg, h⟩ := (Option.any_eq_true ..).mp hrun
  exact ⟨cfg, .replayUnder hcfg, of_decide_eq_true h,
    notPaidTwice (by decide) (.replayUnder hcfg)⟩

/-- The provider takes the transfer on, but the worker does not hear of it. -/
def acceptsUnheard : Choice := { accepts "p1" with fault := .lost }

/-- The worker that tries again is turned down, and gives the withdrawal back
although the transfer is on its way. -/
theorem second_request_refunds :
    ∃ cfg, Machine.replayUnder (api platform liveConfig (LiveProvider platform))
        (.initial World.initial)
        (fundedAda ++ payToBank 6 idempotencyKey "uuid" "x1" "r2" ++
          askProvider 7 "x1" acceptsUnheard ++ calm 7 1 ++ refund 8) = some cfg ∧
      ¬ cfg.state.NotPaidTwice := by
  have hrun : (Machine.replayUnder (api platform liveConfig (LiveProvider platform))
      (.initial World.initial)
      (fundedAda ++ payToBank 6 idempotencyKey "uuid" "x1" "r2" ++
        askProvider 7 "x1" acceptsUnheard ++ calm 7 1 ++ refund 8)).any fun cfg =>
        ∃ r ∈ cfg.state.db.walletTransactions, r.purpose = .reversal ∧
          ∃ w ∈ cfg.state.db.withdrawals, r.withdrawalId = some w.id ∧
            ∃ x ∈ cfg.state.bank.transfers,
              x.params.reference = (bankTransferParams w).reference ∧ x.state = .pending := by
    decide +kernel
  obtain ⟨cfg, hcfg, h⟩ := (Option.any_eq_true ..).mp hrun
  obtain ⟨r, hr, hp, w, hw, hid, x, hx, href, hpending⟩ := of_decide_eq_true h
  refine ⟨cfg, hcfg, fun hnot => ?_⟩
  have hfailed := hnot r hr hp w hw hid x hx href
  cases hpending.symm.trans hfailed

end WalletApi
