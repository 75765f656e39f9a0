import WalletApi.Runs.Overlay

/-!
What the programs throw.

The errors that a service throws on purpose are told apart from those of the
database, the queue and the connections. A program that contains none of the former
lets only the latter through, whatever happens around it (`Raw`). Under an overlay
the two kinds of results are followed together (`OverThrows`).
-/

namespace WalletApi

open Concurrency ReadCommitted World Policy

variable {P : Platform} {config : Config} {Γ : Policy} {q : Call} {i : ℕ} {c : Cmd} {ch : Choice}
  {s t u : World} {α β : Type}

/-- The error has been thrown by a service on purpose. -/
def Err.isApp : Err → Bool
  | app .. => true
  | _ => false

/-! ### The errors of the adapter -/

theorem raw_json {answer : HttpAnswer} {e : Err} (h : answer.json = .error e) :
    e.isApp = false := by
  unfold HttpAnswer.json at h
  split at h
  · cases h
    rfl
  · cases h
    rfl
  · cases h

theorem raw_lowerOrEmpty {value : Option Json} {e : Err}
    (h : Json.lowerOrEmpty P value = .error e) : e.isApp = false := by
  unfold Json.lowerOrEmpty at h
  split at h
  · cases h
  · cases h
  · cases h
  · cases h
    rfl

section Adapter

open FlutterwavePaymentService

variable {answer : HttpAnswer} {e : Err}

/-- An answer that is read and whose status is looked at, as all but one function of
the adapter do. -/
theorem raw_of_answer {β : Type} {f : Json → Except Err β}
    (hf : ∀ body, f body = .error e → e.isApp = false) (h : answer.json >>= f = .error e) :
    e.isApp = false := by
  cases hjson : answer.json with
  | error e' =>
      rw [hjson] at h
      cases h
      exact raw_json hjson
  | ok body =>
      rw [hjson] at h
      exact hf body h

theorem raw_of_status {β : Type} {value : Option Json} {f : String → β}
    (h : (Json.lowerOrEmpty P value >>= fun text => pure (f text)) = .error e) :
    e.isApp = false := by
  cases hstatus : Json.lowerOrEmpty P value with
  | error e' =>
      rw [hstatus] at h
      cases h
      exact raw_lowerOrEmpty hstatus
  | ok text =>
      rw [hstatus] at h
      cases h

theorem raw_verifyByTxRef {txRef : String} (h : verifyByTxRef P txRef answer = .error e) :
    e.isApp = false := by
  refine raw_of_answer (fun body hbody => ?_) h
  dsimp only at hbody
  split at hbody
  · cases hbody
  · exact raw_of_status hbody

theorem raw_initiateBankTransfer (h : initiateBankTransfer P answer = .error e) :
    e.isApp = false := by
  refine raw_of_answer (fun body hbody => ?_) h
  dsimp only at hbody
  split at hbody
  · cases hbody
  · exact raw_of_status hbody

theorem raw_getBankTransferStatus {id : String}
    (h : getBankTransferStatus P id answer = .error e) : e.isApp = false := by
  refine raw_of_answer (fun body hbody => ?_) h
  dsimp only at hbody
  split at hbody
  · cases hbody
  · exact raw_of_status hbody

end Adapter

/-! ### The errors of the commands -/

/-- The adapter answers the command with errors of its own. -/
def Cmd.asksForPayment : Cmd → Bool
  | initiatePayment _ => true
  | _ => false

/-- All other commands fail only with the errors of what they are sent to. -/
theorem World.exec_error {e : Err} (hc : c.asksForPayment = false)
    (h : exec P config i c ch s = some (.error e, t)) : e.isApp = false := by
  rcases exec_eq_some h with ⟨-, -, hr, -⟩ | ⟨r', s', hp, hr | ⟨-, -, hr⟩, -⟩
  · cases hr
    rfl
  · subst hr
    cases c with
    | write client data =>
        rcases write_eq_some hp with ⟨-, code, -, hr⟩ | ⟨row, store, -, -, -, hr, -⟩
        · cases hr
          rfl
        · cases hr
    | lockWalletRow walletId =>
        rcases lockWalletRow_eq_some hp with ⟨hr, -⟩ | ⟨store, -, -, hr, -⟩
        · cases hr
        · cases hr
    | begin =>
        obtain ⟨store, -, he⟩ := Option.map_eq_some_iff.mp hp
        cases he
    | commit =>
        obtain ⟨store, -, he⟩ := Option.map_eq_some_iff.mp hp
        cases he
    | takeJob queue =>
        obtain ⟨job, -, he⟩ := Option.map_eq_some_iff.mp hp
        cases he
    | initiatePayment params => cases hc
    | verifyByTxRef txRef =>
        simp only [perform] at hp
        split at hp
        · cases hp
        · exact raw_verifyByTxRef (Prod.ext_iff.mp (Option.some.inj hp)).1
    | initiateBankTransfer params =>
        simp only [perform] at hp
        split at hp
        · cases hp
        · exact raw_initiateBankTransfer (Prod.ext_iff.mp (Option.some.inj hp)).1
    | getBankTransferStatus id =>
        simp only [perform] at hp
        split at hp
        · cases hp
        · exact raw_getBankTransferStatus (Prod.ext_iff.mp (Option.some.inj hp)).1
    | _ => cases hp
  · cases hr
    rfl

/-! ### Programs that throw nothing on purpose -/

variable (P config) in
/-- Any thread may take any step. -/
def anything : RelyGuarantee signature World Call where
  Step _ i c s r t := ∃ ch, exec P config i c ch s = some (r, t)
  Inv _ := True
  Guar _ _ _ := True
  Demand _ _ _ := True

variable (P config) in
/-- The program throws only what its commands fail with. -/
def Raw (p : Program α) : Prop :=
  ∀ q i s, (anything P config).wp q i p (fun _ _ => True) (fun e _ => e.isApp = false) s

namespace Raw

theorem ret {a : α} : Raw P config (.ret a) := fun _ _ _ => trivial

theorem fail {e : Err} (h : e.isApp = false) : Raw P config (.fail e : Program α) := fun _ _ _ => h

theorem bind {p : Program β} {f : β → Program α} (hp : Raw P config p)
    (hf : ∀ b, Raw P config (f b)) : Raw P config (p >>= f) := by
  intro q i s
  exact RelyGuarantee.wp_bind (RelyGuarantee.wp_mono (fun b t _ => hf b q i t) (fun _ _ h => h) p
    (hp q i s))

theorem perform (hc : c.asksForPayment = false) : Raw P config (perform c) := by
  intro q i s
  refine RelyGuarantee.wp_perform (fun _ _ _ => trivial) (fun _ _ _ _ _ _ => ⟨trivial, trivial, trivial⟩)
    fun t u e _ _ hstep => ⟨trivial, trivial, ?_⟩
  obtain ⟨ch, he⟩ := hstep
  exact exec_error hc he

theorem throwIf {b : Prop} [Decidable b] {e : Err} (h : e.isApp = false) :
    Raw P config (throwIf b e) := by
  rw [WalletApi.throwIf]
  split
  · exact fail h
  · exact ret

theorem transaction {p : Program α} (h : Raw P config p) : Raw P config (transaction p) := by
  intro q i s
  have hbody : Raw P config (do
      let _ ← WalletApi.perform .begin
      let a ← p
      let _ ← WalletApi.perform .commit
      return a) :=
    .bind (.perform rfl) fun _ => .bind h fun _ => .bind (.perform rfl) fun _ => .ret
  refine RelyGuarantee.wp_tryCatch (RelyGuarantee.wp_mono (fun _ _ h => h) ?_ _ (hbody q i s))
  intro e t he
  exact (Raw.bind (.perform rfl) fun _ => .fail he) q i t

theorem lockWalletRow {walletId : String} : Raw P config (lockWalletRow walletId) :=
  .bind (.perform rfl) fun _ => .throwIf rfl

theorem insert {data : WalletTransactionRepository.CreateWalletTransactionData} :
    Raw P config (WalletTransactionRepository.insert data) :=
  .bind (.perform rfl) fun _ => .perform rfl

end Raw

/-- The policy that asks for nothing. -/
def Policy.free : Policy where
  Inv _ := True
  Guar _ _ _ := True
  Allows _ _ _ _ _ := True
  quiet _ _ := ⟨trivial, trivial⟩

/-! ### Errors under an overlay -/

namespace OverThrows

variable {O : Overlay (Γ.discipline P config)} {Q Q' : α → World → Prop} {E E' : Err → Prop}
  {p : Program α}

theorem ret {a : α} (h : Q a s) : OverThrows O q i (.ret a) Q E s := h

theorem fail {e : Err} (h : E e) : OverThrows O q i (.fail e) Q E s := h

theorem bind {f : β → Program α} {p : Program β}
    (h : OverThrows O q i p (fun b u => OverThrows O q i (f b) Q E u) E s) :
    OverThrows O q i (p >>= f) Q E s :=
  RelyGuarantee.wp_bind h

theorem mono (hQ : ∀ a u, Q a u → Q' a u) (h : OverThrows O q i p Q E s) :
    OverThrows O q i p Q' E s :=
  RelyGuarantee.wp_mono hQ (fun _ _ h => h) p h

/-- If only the result matters. -/
theorem forget (h : OverThrows O q i p Q E s) : Over O q i p Q s :=
  RelyGuarantee.wp_mono (fun _ _ h => h) (fun _ _ _ => trivial) p h

theorem throwIf {b : Prop} [Decidable b] {e : Err} {Q : Unit → World → Prop} (hyes : b → E e)
    (hno : ¬b → Q () s) : OverThrows O q i (throwIf b e) Q E s :=
  wp_throwIf hyes hno

theorem orThrow {o : Option α} {e : Err} (hnone : o = none → E e) (hsome : ∀ a, o = some a → Q a s) :
    OverThrows O q i (orThrow o e) Q E s :=
  wp_orThrow hnone hsome

theorem tryCatch {h : Err → Program α} (hp : OverThrows O q i p Q E' s)
    (hh : ∀ e u, E' e → OverThrows O q i (h e) Q E u) :
    OverThrows O q i (tryCatch p h) Q E s :=
  RelyGuarantee.wp_tryCatch (RelyGuarantee.wp_mono (fun _ _ hQ => hQ) hh p hp)

/-- What is known without any policy can be added. -/
theorem and_free {Q₀ : α → World → Prop} (h : OverThrows O q i p Q E s)
    (h₀ : (Policy.free.discipline P config).wp q i p Q₀ (fun _ _ => True) s) :
    OverThrows O q i p (fun a u => Q a u ∧ Q₀ a u) E s := by
  have hinv {s : World} (h : (Γ.discipline P config).Inv s) :
      (Policy.free.discipline P config).Inv s := ⟨h.1, h.2.1, trivial⟩
  have hguar {i : ℕ} {s t : World} (h : (Γ.discipline P config).Guar i s t) :
      (Policy.free.discipline P config).Guar i s t := ⟨h.1, h.2.1, trivial⟩
  have hstep {c : Cmd} {r : Except Err c.Resp} {s t : World}
      (h : (Γ.discipline P config).Step q i c s r t) :
      (Policy.free.discipline P config).Step q i c s r t := by
    obtain ⟨ch, -, he⟩ := h
    exact ⟨ch, trivial, he⟩
  exact RelyGuarantee.wp_mono (fun _ _ h => h) (fun _ _ h => h.1) p
    (Overlay.wp_and hinv hguar hstep p h h₀)

section Raw

variable (hE : ∀ e : Err, e.isApp = false → E e)

include hE

/-- A plain command. -/
theorem plain {Q : c.Resp → World → Prop} (hc : O.Plain c) (hpayment : c.asksForPayment = false)
    (h : ∀ t u a, Over.Passed O q i c s t a u → Q a u) :
    OverThrows O q i (WalletApi.perform c) Q E s :=
  plain_of hc (fun he => hE _ (exec_error hpayment he)) h

/-- A command that is not plain. -/
theorem command {Q : c.Resp → World → Prop} (hpayment : c.asksForPayment = false)
    (hd : ∀ t, O.layered.Inv t → (Γ.discipline P config).Runs s t → O.Demand i c t)
    (hkeep : ∀ t r u, O.layered.Inv t → Own Γ P config q i c s t r u →
      (Γ.discipline P config).Inv u → (Γ.discipline P config).Guar i t u → O.Inv u)
    (h : ∀ t u a, Over.Passed O q i c s t a u → Q a u) :
    OverThrows O q i (WalletApi.perform c) Q E s :=
  command_of (fun he => hE _ (exec_error hpayment he)) hd hkeep h

/-- A lookup. -/
theorem select {client : Client} {qy : Query} {Q : qy.Result → World → Prop}
    (hc : O.Plain (.select client qy))
    (h : ∀ t u, Over.Passed O q i (.select client qy) s t (qy.run (t.view i client)) u →
      Q (qy.run (t.view i client)) u) : OverThrows O q i (WalletApi.select client qy) Q E s :=
  lookup_of hc (fun he => hE _ (exec_error rfl he)) h

/-- A program of plain commands that throws nothing on purpose. -/
theorem within (hp : p.Within O.Plain) (hraw : Raw P config p)
    (hQ : ∀ a u, (Γ.discipline P config).Runs s u → Q a u) : OverThrows O q i p Q E s := by
  refine RelyGuarantee.wp_mono (fun _ _ h => h.1) (fun e _ h => hE e h.2) p
    (Overlay.wp_and (fun _ => trivial) (fun _ => trivial) ?_ p (Over.within hp hQ) (hraw q i s))
  rintro c r s t ⟨ch, -, he⟩
  exact ⟨ch, he⟩

end Raw

end OverThrows

end WalletApi
