import WalletApi.Runs.Failures
import WalletApi.Runs.Solo

/-!
Which errors a program can throw at all.

`MayThrow E p` says that whatever happens around the program, every error it lets
through satisfies `E`. The rules follow the text of the program, so the errors of a
service can be read off it. Under an overlay such a program can take the place of one
that throws nothing on purpose.

The errors of the database, the queue and the connections are kept apart from those
that the adapter of the provider makes up, because only the former can occur in the
middle of a transaction.
-/

namespace WalletApi

open Concurrency ReadCommitted World Policy

variable {P : Platform} {config : Config} {Γ : Policy} {q : Call} {i : ℕ} {c : Cmd} {ch : Choice}
  {s t u : World} {α β : Type}

/-- An error of the database, the queue or a connection. -/
def Err.isInfrastructure : Err → Bool
  | prisma _ | network => true
  | _ => false

/-- The command asks the provider, whose adapter has errors of its own. -/
def Cmd.asksProvider : Cmd → Bool
  | initiatePayment _ | verifyByTxRef _ | initiateBankTransfer _ | getBankTransferStatus _ => true
  | _ => false

namespace World

theorem infrastructure_of_exec {e : Err} (hc : c.asksProvider = false)
    (h : exec P config i c ch s = some (.error e, t)) : e.isInfrastructure = true := by
  rcases exec_eq_some h with ⟨-, -, hr, -⟩ | ⟨r', s', hp, hr | ⟨-, -, hr⟩, -⟩
  · cases hr
    rfl
  · subst hr
    cases c with
    | write client data =>
        rcases write_eq_some hp with ⟨-, code, -, hr⟩ | ⟨row, store, -, -, -, hr, -⟩
        · cases hr
          rfl
        · cases hr
    | lockWalletRow walletId =>
        rcases lockWalletRow_eq_some hp with ⟨hr, -⟩ | ⟨store, -, -, hr, -⟩
        · cases hr
        · cases hr
    | begin =>
        obtain ⟨store, -, he⟩ := Option.map_eq_some_iff.mp hp
        cases he
    | commit =>
        obtain ⟨store, -, he⟩ := Option.map_eq_some_iff.mp hp
        cases he
    | takeJob queue =>
        obtain ⟨job, -, he⟩ := Option.map_eq_some_iff.mp hp
        cases he
    | initiatePayment params => cases hc
    | verifyByTxRef txRef => cases hc
    | initiateBankTransfer params => cases hc
    | getBankTransferStatus id => cases hc
    | _ => cases hp
  · cases hr
    rfl

end World

/-- The errors of a request for a payment, and of a link in its answer that is not a
string. -/
inductive PaymentError : Err → Prop
  | network : PaymentError .network
  | json : PaymentError (.error "Unexpected token in JSON")
  | null : PaymentError (.error "Cannot read properties of null")
  | link : PaymentError (.error "Invalid value provided.")
  | badGateway (message : String) : PaymentError (customError.badGateway message)
  | serviceUnavailable (message : String) : PaymentError (customError.serviceUnavailable message)

theorem paymentError_of_json {answer : HttpAnswer} {e : Err} (h : answer.json = .error e) :
    PaymentError e := by
  unfold HttpAnswer.json at h
  split at h
  · cases h
    exact .json
  · cases h
    exact .null
  · cases h

theorem paymentError_of_failure (body : Json) :
    PaymentError (FlutterwavePaymentService.initiatePayment.failure body) := by
  unfold FlutterwavePaymentService.initiatePayment.failure
  dsimp only
  split
  · exact .serviceUnavailable _
  · exact .badGateway _

theorem paymentError_of_initiatePayment {answer : HttpAnswer} {e : Err}
    (h : FlutterwavePaymentService.initiatePayment answer = .error e) : PaymentError e := by
  unfold FlutterwavePaymentService.initiatePayment at h
  cases hjson : answer.json with
  | error e' =>
      rw [hjson] at h
      cases h
      exact paymentError_of_json hjson
  | ok body =>
      rw [hjson] at h
      simp only [bind, Except.bind] at h
      split at h
      · split at h
        · cases h
        · cases h
          exact paymentError_of_failure body
      · cases h
        exact paymentError_of_failure body

theorem World.paymentError_of_exec {params : InitiatePaymentParams} {e : Err}
    (h : World.exec P config i (.initiatePayment params) ch s = some (.error e, t)) :
    PaymentError e := by
  rcases exec_eq_some h with ⟨-, -, hr, -⟩ | ⟨r', s', hp, hr | ⟨-, -, hr⟩, -⟩
  · cases hr
    exact .network
  · subst hr
    simp only [perform] at hp
    split at hp
    · cases hp
    · exact paymentError_of_initiatePayment (Prod.ext_iff.mp (Option.some.inj hp)).1
  · cases hr
    exact .network

/-- The errors of a verification. -/
inductive VerifyError : Err → Prop
  | network : VerifyError .network
  | json : VerifyError (.error "Unexpected token in JSON")
  | null : VerifyError (.error "Cannot read properties of null")
  | status : VerifyError (.error "toLowerCase is not a function")

theorem verifyError_of_json {answer : HttpAnswer} {e : Err} (h : answer.json = .error e) :
    VerifyError e := by
  unfold HttpAnswer.json at h
  split at h
  · cases h
    exact .json
  · cases h
    exact .null
  · cases h

theorem verifyError_of_lowerOrEmpty {value : Option Json} {e : Err}
    (h : Json.lowerOrEmpty P value = .error e) : VerifyError e := by
  unfold Json.lowerOrEmpty at h
  split at h
  · cases h
  · cases h
  · cases h
  · cases h
    exact .status

theorem verifyError_of_verifyByTxRef {txRef : String} {answer : HttpAnswer} {e : Err}
    (h : FlutterwavePaymentService.verifyByTxRef P txRef answer = .error e) : VerifyError e := by
  unfold FlutterwavePaymentService.verifyByTxRef at h
  cases hjson : answer.json with
  | error e' =>
      rw [hjson] at h
      cases h
      exact verifyError_of_json hjson
  | ok body =>
      rw [hjson] at h
      simp only [bind, Except.bind] at h
      split at h
      · cases h
      · split at h
        · rename_i hstatus
          cases h
          exact verifyError_of_lowerOrEmpty hstatus
        · cases h

theorem World.verifyError_of_exec {txRef : String} {e : Err}
    (h : World.exec P config i (.verifyByTxRef txRef) ch s = some (.error e, t)) :
    VerifyError e := by
  rcases exec_eq_some h with ⟨-, -, hr, -⟩ | ⟨r', s', hp, hr | ⟨-, -, hr⟩, -⟩
  · cases hr
    exact .network
  · subst hr
    simp only [perform] at hp
    split at hp
    · cases hp
    · exact verifyError_of_verifyByTxRef (Prod.ext_iff.mp (Option.some.inj hp)).1
  · cases hr
    exact .network

/-! ### The rules -/

variable (P config) in
/-- Every error that the program lets through satisfies `E`. -/
def MayThrow (E : Err → Prop) (p : Program α) : Prop :=
  ∀ q i s, (anything P config).wp q i p (fun _ _ => True) (fun e _ => E e) s

namespace MayThrow

variable {E E' : Err → Prop} {p : Program α}

theorem ret {a : α} : MayThrow P config E (.ret a) := fun _ _ _ => trivial

theorem fail {e : Err} (h : E e) : MayThrow P config E (.fail e : Program α) := fun _ _ _ => h

theorem bind {p : Program β} {f : β → Program α} (hp : MayThrow P config E p)
    (hf : ∀ b, MayThrow P config E (f b)) : MayThrow P config E (p >>= f) := by
  intro q i s
  exact RelyGuarantee.wp_bind (RelyGuarantee.wp_mono (fun b t _ => hf b q i t) (fun _ _ h => h) p
    (hp q i s))

theorem tryCatch {h : Err → Program α} (hp : MayThrow P config E' p)
    (hh : ∀ e, E' e → MayThrow P config E (h e)) : MayThrow P config E (tryCatch p h) := by
  intro q i s
  exact RelyGuarantee.wp_tryCatch (RelyGuarantee.wp_mono (fun _ _ h => h)
    (fun e t he => hh e he q i t) p (hp q i s))

theorem throwIf {b : Prop} [Decidable b] {e : Err} (h : E e) : MayThrow P config E (throwIf b e) := by
  rw [WalletApi.throwIf]
  split
  · exact fail h
  · exact ret

theorem orThrow {o : Option α} {e : Err} (h : E e) : MayThrow P config E (orThrow o e) := by
  cases o with
  | none => exact fail h
  | some a => exact ret

theorem initiatePayment {params : InitiatePaymentParams} (hE : ∀ e, PaymentError e → E e) :
    MayThrow P config E (WalletApi.perform (.initiatePayment params)) := by
  intro q i s
  refine RelyGuarantee.wp_perform (fun _ _ _ => trivial) (fun _ _ _ _ _ _ => ⟨trivial, trivial, trivial⟩)
    fun t u e _ _ hstep => ⟨trivial, trivial, ?_⟩
  obtain ⟨ch, he⟩ := hstep
  exact hE e (paymentError_of_exec he)

section Infrastructure

variable (hE : ∀ e : Err, e.isInfrastructure = true → E e)

include hE

theorem perform (hc : c.asksProvider = false) : MayThrow P config E (perform c) := by
  intro q i s
  refine RelyGuarantee.wp_perform (fun _ _ _ => trivial) (fun _ _ _ _ _ _ => ⟨trivial, trivial, trivial⟩)
    fun t u e _ _ hstep => ⟨trivial, trivial, ?_⟩
  obtain ⟨ch, he⟩ := hstep
  exact hE e (infrastructure_of_exec hc he)

theorem transaction (h : MayThrow P config E p) : MayThrow P config E (transaction p) := by
  have hbody : MayThrow P config E (do
      let _ ← WalletApi.perform .begin
      let a ← p
      let _ ← WalletApi.perform .commit
      return a) :=
    .bind (.perform hE rfl) fun _ => .bind h fun _ => .bind (.perform hE rfl) fun _ => .ret
  exact .tryCatch hbody fun e he => .bind (.perform hE rfl) fun _ => .fail he

theorem insert {data : WalletTransactionRepository.CreateWalletTransactionData} :
    MayThrow P config E (WalletTransactionRepository.insert data) :=
  .bind (.perform hE rfl) fun _ => .perform hE rfl

theorem lockWalletRow {walletId : String} (hmissing : ∀ id, E (.error ("Wallet not found: " ++ id))) :
    MayThrow P config E (lockWalletRow walletId) :=
  .bind (.perform hE rfl) fun _ => .throwIf (hmissing _)

theorem lockWalletRows {ids : List String} (hmissing : ∀ id, E (.error ("Wallet not found: " ++ id))) :
    MayThrow P config E (lockWalletRows ids) := by
  induction ids with
  | nil => exact .ret
  | cons id ids ih => exact .bind (.lockWalletRow hE hmissing) fun _ => ih

/-- The check of a password or PIN. -/
theorem checkSecret {secret hash message : String} {tryCount : ℕ} {lockedUntil : Option ℕ}
    {reset : Program User} {record : ℕ → Option ℕ → Program User}
    (hunauthorized : ∀ message, E (customError.unauthorized message))
    (hreset : MayThrow P config E reset) (hrecord : ∀ n l, MayThrow P config E (record n l)) :
    MayThrow P config E (AuthCredentialService.checkSecret secret hash tryCount lockedUntil reset
      record message) := by
  have hnow : MayThrow P config E (WalletApi.perform .now) := .perform hE rfl
  have hexpired : MayThrow P config E (AuthCredentialService.lockExpired lockedUntil) := by
    cases lockedUntil with
    | none => exact .ret
    | some l => exact .bind hnow fun _ => .ret
  have hnotLocked (l : Option ℕ) : MayThrow P config E (AuthCredentialService.assertNotLocked l) := by
    cases l with
    | none => exact .ret
    | some l =>
        refine .bind hnow fun now => ?_
        show MayThrow P config E (if _ then _ else _)
        split
        · exact .bind hnow fun _ => .fail (hunauthorized _)
        · exact .ret
  have hmaxed (n : ℕ) : MayThrow P config E (AuthCredentialService.lockUntilIfMaxed n) := by
    unfold AuthCredentialService.lockUntilIfMaxed
    split
    · exact .bind hnow fun _ => .ret
    · exact .ret
  have hcompare (n : ℕ) (l : Option ℕ) : MayThrow P config E
      (AuthCredentialService.checkSecret.compare secret hash reset record message n l) := by
    refine .bind (hnotLocked l) fun _ => .bind (.perform hE rfl) fun (valid : Bool) => ?_
    show MayThrow P config E (if _ then _ else _)
    split
    · show MayThrow P config E (if _ then _ else _)
      split
      · exact .bind hreset fun _ => .ret
      · exact .ret
    · exact .bind (hmaxed _) fun _ => .bind (hrecord _ _) fun _ => .fail (hunauthorized _)
  refine .bind hexpired fun (expired : Bool) => ?_
  show MayThrow P config E (if _ then _ else _)
  split
  · exact .bind hreset fun _ => hcompare _ _
  · exact hcompare _ _

theorem verifyPasswordOrThrow {user : User} {password message : String}
    (hunauthorized : ∀ message, E (customError.unauthorized message)) :
    MayThrow P config E (AuthCredentialService.verifyPasswordOrThrow user password message) :=
  .checkSecret hE hunauthorized (.perform hE rfl) fun _ _ => .perform hE rfl

end Infrastructure

/-- What a program may throw it may throw by itself. -/
theorem alone {A : Machine.Assumptions (walletApi P config)} {D : Trace → Cmd → Prop} {tr : Trace}
    (hD : ∀ c tr, D tr c) (h : MayThrow P config E p) :
    (Machine.solo A i D).wp q i p (fun _ _ => True) (fun e _ => E e) tr := by
  have hany (s t : World) : (anything P config).Rely i s t :=
    .single ⟨trivial, trivial, i + 1, i.succ_ne_self, trivial⟩
  -- Whatever state the program is in, the others may put it into any other.
  have hgeneral : ∀ tr, (∃ s, (anything P config).wp q i p (fun _ _ => True) (fun e _ => E e) s) →
      (Machine.solo A i D).wp q i p (fun _ _ => True) (fun e _ => E e) tr := by
    clear h
    induction p with
    | ret a => exact fun _ _ => trivial
    | fail e => exact fun _ ⟨_, he⟩ => he
    | op c k ih =>
        rintro tr ⟨s, hs⟩ tr' - hrely
        refine ⟨hD c tr', ?_⟩
        rintro r _ ⟨⟨ch, t, u, -, he⟩, rfl⟩
        obtain ⟨-, hnext⟩ := hs t trivial (hany s t)
        exact ⟨trivial, rfl, ih r _ ⟨u, (hnext r u ⟨ch, he⟩).2.2⟩⟩
  exact hgeneral tr ⟨World.initial, h q i World.initial⟩

end MayThrow

/-! ### Under an overlay -/

namespace OverThrows

variable {O : Overlay (Γ.discipline P config)} {Q Q' : α → World → Prop} {E E' : Err → Prop}
  {p : Program α}

/-- A program of plain commands whose errors are known. -/
theorem of_throws (hp : p.Within O.Plain) (hthrows : MayThrow P config E p)
    (hQ : ∀ a u, (Γ.discipline P config).Runs s u → Q a u) : OverThrows O q i p Q E s := by
  refine RelyGuarantee.wp_mono (fun _ _ h => h.1) (fun e _ h => h.2) p
    (Overlay.wp_and (fun _ => trivial) (fun _ => trivial) ?_ p (Over.within hp hQ) (hthrows q i s))
  rintro c r s t ⟨ch, -, he⟩
  exact ⟨ch, he⟩

/-- What the policy itself says about a program of plain commands. -/
theorem of_wp (hp : p.Within O.Plain)
    (h : (Γ.discipline P config).wp q i p Q (fun e _ => E e) s) : OverThrows O q i p Q E s :=
  RelyGuarantee.wp_mono (fun _ _ h => h.2) (fun _ _ h => h.2) p
    (Overlay.wp_and (fun h => h) (fun h => h) (fun h => h) p
      (Over.within (Q := fun _ _ => True) hp fun _ _ _ => trivial) h)

theorem map {f : β → α} {p : Program β} (h : OverThrows O q i p (fun b => Q (f b)) E s) :
    OverThrows O q i (f <$> p) Q E s :=
  bind (f := fun b => .ret (f b)) h

/-- If the errors do not matter. -/
theorem of_over (hE : ∀ e, E e) (h : Over O q i p Q s) : OverThrows O q i p Q E s :=
  RelyGuarantee.wp_mono (fun _ _ h => h) (fun e _ _ => hE e) p h

section Infrastructure

variable (hE : ∀ e : Err, e.isInfrastructure = true → E e)

include hE

/-- A plain command that does not ask the provider. -/
theorem command_plain {Q : c.Resp → World → Prop} (hc : O.Plain c) (hprovider : c.asksProvider = false)
    (h : ∀ t u a, Over.Passed O q i c s t a u → Q a u) :
    OverThrows O q i (WalletApi.perform c) Q E s :=
  plain_of hc (fun he => hE _ (infrastructure_of_exec hprovider he)) h

/-- A command that is not plain, and does not ask the provider. -/
theorem command_demand {Q : c.Resp → World → Prop} (hprovider : c.asksProvider = false)
    (hd : ∀ t, O.layered.Inv t → (Γ.discipline P config).Runs s t → O.Demand i c t)
    (hkeep : ∀ t r u, O.layered.Inv t → Own Γ P config q i c s t r u →
      (Γ.discipline P config).Inv u → (Γ.discipline P config).Guar i t u → O.Inv u)
    (h : ∀ t u a, Over.Passed O q i c s t a u → Q a u) :
    OverThrows O q i (WalletApi.perform c) Q E s :=
  command_of (fun he => hE _ (infrastructure_of_exec hprovider he)) hd hkeep h

/-- A lookup. -/
theorem lookup {client : Client} {qy : Query} {Q : qy.Result → World → Prop}
    (hc : O.Plain (.select client qy))
    (h : ∀ t u, Over.Passed O q i (.select client qy) s t (qy.run (t.view i client)) u →
      Q (qy.run (t.view i client)) u) : OverThrows O q i (WalletApi.select client qy) Q E s :=
  lookup_of hc (fun he => hE _ (infrastructure_of_exec rfl he)) h

/-- A transaction, from its beginning to its commit. -/
theorem transaction (hO : ∀ c : Cmd, c.bounds = true → O.Plain c)
    (h : ∀ u, (Γ.discipline P config).Runs s u →
      OverThrows O q i p (fun a v => ∀ w, (Γ.discipline P config).Runs v w → Q a w) E u) :
    OverThrows O q i (transaction p) Q E s := by
  refine tryCatch (bind (command_plain hE (hO _ rfl) rfl fun _ u _ hp => bind ?_)) fun e u he => ?_
  · refine (h u hp.runs).mono fun a v hv => bind (command_plain hE (hO _ rfl) rfl fun _ w _ hp' => ?_)
    exact ret (hv w hp'.runs)
  · exact bind (command_plain hE (hO _ rfl) rfl fun _ _ _ _ => fail he)

end Infrastructure

end OverThrows

end WalletApi
