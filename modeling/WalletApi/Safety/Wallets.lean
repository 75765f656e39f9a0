import WalletApi.Runs.Throws
import WalletApi.Safety.Reconciliation

/-!
Every user has a wallet, and every wallet can be used.

A user and its wallet are written by one statement, and neither is ever deleted. So
in every state the owners of the wallets are the users, one by one, and what the
services check about a wallet again and again cannot fail: once the PIN of a user has
been verified the wallet is found, the wallet of a recipient who has been found is
found as well, both are active, and the rows are there when they are locked.
-/

namespace WalletApi

open Concurrency ReadCommitted World Policy

variable {P : Platform} {config : Config} {A : Call → ℕ → Cmd → Choice → World → Prop} {q : Call}
  {i : ℕ} {c : Cmd} {ch : Choice} {s t u : World} {d d' : Db}

/-! ### The tables of users and wallets -/

structure Db.Paired (d : Db) : Prop where
  owners : d.wallets.map (·.userId) = d.users.map (·.id)
  usable : ∀ w ∈ d.wallets, w.currency = "NGN" ∧ w.status = .active

/-- The wallet that a new user is given. -/
structure Wallet.NewFor (wallet : Wallet) (user : User) : Prop where
  userId : wallet.userId = user.id
  currency : wallet.currency = "NGN"
  status : wallet.status = .active

def Db.HasUser (d : Db) (userId : String) : Prop := ∃ u ∈ d.users, u.id = userId

def Db.HasWallet (d : Db) (walletId : String) : Prop := ∃ w ∈ d.wallets, w.id = walletId

theorem Db.HasUser.mono {userId : String} (h : d.HasUser userId) (hg : d.Grows d') :
    d'.HasUser userId := by
  obtain ⟨u, hu, hid⟩ := h
  obtain ⟨u', hu', hcore⟩ := hg.users u hu
  have hid' : u'.core.id = u.core.id := by rw [hcore]
  exact ⟨u', hu', (show u'.id = u.id from hid').trans hid⟩

theorem Db.HasWallet.mono {walletId : String} (h : d.HasWallet walletId) (hg : d.Grows d') :
    d'.HasWallet walletId := by
  obtain ⟨w, hw, hid⟩ := h
  exact ⟨w, hg.wallets w hw, hid⟩

namespace Db.Paired

theorem empty : Db.empty.Paired := ⟨rfl, fun _ hw => absurd hw List.not_mem_nil⟩

/-- The wallet of a user is found. -/
theorem walletByUserId (h : d.Paired) {userId : String} (huser : d.HasUser userId) :
    ∃ w ∈ d.wallets, (Query.walletByUserId userId).run d = some w ∧ w.userId = userId ∧
      w.status = .active := by
  obtain ⟨u, hu, rfl⟩ := huser
  have howner : u.id ∈ d.wallets.map (·.userId) := by
    rw [h.owners]
    exact List.mem_map_of_mem hu
  obtain ⟨x, hx, hxid⟩ := List.mem_map.mp howner
  obtain ⟨w, hfind⟩ : ∃ w, d.wallets.find? (·.userId = u.id) = some w :=
    Option.isSome_iff_exists.mp (List.find?_isSome.mpr ⟨x, hx, decide_eq_true hxid⟩)
  have hw := List.mem_of_find?_eq_some hfind
  have hid := List.find?_some hfind
  exact ⟨w, hw, hfind, of_decide_eq_true hid, (h.usable w hw).2⟩

theorem user_of_wallet (h : d.Paired) {w : Wallet} (hw : w ∈ d.wallets) : d.HasUser w.userId := by
  have howner : w.userId ∈ d.users.map (·.id) := by
    rw [← h.owners]
    exact List.mem_map_of_mem hw
  obtain ⟨u, hu, hid⟩ := List.mem_map.mp howner
  exact ⟨u, hu, hid⟩

/-- A user has one wallet only. -/
theorem wallets_eq_singleton (h : d.Paired) (hu : d.Unique) {userId : String}
    (huser : d.HasUser userId) : ∃ w, d.wallets.filter (·.userId = userId) = [w] ∧
      w.currency = "NGN" ∧ w.status = .active := by
  obtain ⟨w, hw, -, hid, hs⟩ := h.walletByUserId huser
  refine ⟨w, filter_eq_singleton (.of_map _ hu.walletIds_nodup) hw hid (fun w' hw' hid' => ?_),
    (h.usable w hw).1, hs⟩
  exact hu.wallet_of_userId hw' hw (hid'.trans hid.symm)

theorem of_tables (h : d.Paired) (husers : d'.users = d.users) (hwallets : d'.wallets = d.wallets) :
    d'.Paired := by
  refine ⟨?_, fun w hw => h.usable w (hwallets ▸ hw)⟩
  rw [husers, hwallets]
  exact h.owners

/-- An update leaves the ids of the users as they are. -/
theorem update (h : d.Paired) (id : String) (data : UserUpdate) :
    ((Write.updateUser id data).apply d).Paired := by
  refine ⟨?_, h.usable⟩
  have hids : (Write.update User.id id (·.patch data) d.users).map (·.id) = d.users.map (·.id) := by
    rw [Write.update, List.map_map]
    refine List.map_congr_left fun u _ => ?_
    show (if u.id = id then u.patch data else u).id = u.id
    split <;> rfl
  exact h.owners.trans hids.symm

theorem create (h : d.Paired) {user : User} {wallet : Wallet} (hnew : wallet.NewFor user) :
    ((Write.createUserWithWallet user wallet).apply d).Paired := by
  refine ⟨?_, fun w hw => ?_⟩
  · show (d.wallets ++ [wallet]).map (·.userId) = (d.users ++ [user]).map (·.id)
    rw [List.map_append, List.map_append, h.owners, List.map_singleton, List.map_singleton,
      hnew.userId]
  · rcases List.mem_append.mp hw with hold | hnew'
    · exact h.usable w hold
    · rw [List.mem_singleton.mp hnew']
      exact ⟨hnew.currency, hnew.status⟩

end Db.Paired

/-! ### The overlay -/

/-- A user is written together with its wallet, and not in a transaction. -/
def ownersDemand : Cmd → Prop
  | .write .tx w => w.inTransaction = true
  | .write .pool (.createUserWithWallet user wallet) => wallet.NewFor user
  | _ => True

theorem ownersDemand_common (c : Cmd) (hc : c.common = true) : ownersDemand c := by
  cases c with
  | write client w => cases hc
  | _ => trivial

theorem ownersDemand_bounds (c : Cmd) (hc : c.bounds = true) : ownersDemand c := by
  cases c with
  | write client w => cases hc
  | _ => trivial

theorem Db.Paired.write {w : Write} (h : d.Paired) (hd : ownersDemand (.write .pool w)) :
    (w.apply d).Paired := by
  cases w with
  | createUserWithWallet user wallet => exact h.create hd
  | updateUser id data => exact h.update id data
  | _ => exact h.of_tables rfl rfl

variable (P config A) in
def owners : Overlay ((bookkeeping A).discipline P config) where
  Inv s := s.db.Paired ∧ s.Staged fun _ w => w.inTransaction = true
  Demand _ c _ := ownersDemand c
  Plain := ownersDemand
  meets hc := hc
  keeps {q i c s r t} hc hstep _ _ _ h := by
    obtain ⟨ch, -, he⟩ := hstep
    refine ⟨?_, h.2.exec he (fun _ _ h => h) fun w hw => ?_⟩
    · rcases exec_db he with hdb | ⟨w, rfl, hdb, -⟩ | ⟨-, ws, hopen, hdb⟩
      · rw [hdb]
        exact h.1
      · rw [hdb]
        exact h.1.write hc
      · rw [hdb]
        refine applyAll_keeps (p := fun w => w.inTransaction = true) (fun w d hw hd => ?_)
          (h.2 i ws hopen) h.1
        obtain ⟨husers, hwallets, -⟩ := Write.apply_inTransaction hw d
        exact hd.of_tables husers hwallets
    · subst hw
      exact hc

namespace OverThrows

variable {α : Type} {E : Err → Prop} {Q : α → World → Prop}

/-- A row that is there can be locked. -/
theorem lockWalletRow (hE : ∀ e : Err, e.isInfrastructure = true → E e) {walletId : String}
    (hwallet : s.db.HasWallet walletId) :
    OverThrows (owners P config A) q i (lockWalletRow walletId)
      (fun _ u => ((bookkeeping A).discipline P config).Runs s u) E s := by
  refine bind (command_plain hE trivial rfl fun t u (found : Bool) hp => ?_)
  refine throwIf (fun hnone => ?_) fun _ => hp.runs
  subst hnone
  exfalso
  obtain ⟨w, hw, hid⟩ := hwallet.mono (grows_of_runs hp.own.runs)
  rcases hp.own.answer with ⟨-, hr, -⟩ | ⟨ch, r', s', hperform, hr | ⟨-, hr⟩, -⟩
  · cases hr
  · subst hr
    rcases lockWalletRow_eq_some hperform with ⟨-, -, hnone⟩ | ⟨store, -, -, hr, -⟩
    · exact hnone w hw hid
    · cases hr
  · cases hr

theorem lockWalletRows (hE : ∀ e : Err, e.isInfrastructure = true → E e) :
    ∀ {ids : List String} {s : World}, (∀ walletId ∈ ids, s.db.HasWallet walletId) →
      OverThrows (owners P config A) q i (lockWalletRows ids) (fun _ _ => True) E s := by
  intro ids
  induction ids with
  | nil => exact fun _ => ret trivial
  | cons walletId ids ih =>
      intro s h
      refine bind ((lockWalletRow hE (h walletId (.head _))).mono fun _ u hr => ih fun id hid => ?_)
      exact (h id (.tail _ hid)).mono (grows_of_runs hr)

/-- The wallet of a user is there and active. -/
theorem findByUserId (hE : ∀ e : Err, e.isInfrastructure = true → E e) {userId : String}
    {rest : Option Wallet → Program α} (huser : s.db.HasUser userId)
    (h : ∀ (wallet : Wallet) u, ((bookkeeping A).discipline P config).Runs s u → wallet.status = .active →
      u.db.HasWallet wallet.id → OverThrows (owners P config A) q i (rest (some wallet)) Q E u) :
    OverThrows (owners P config A) q i (WalletRepository.findByUserId userId >>= rest) Q E s := by
  refine bind (lookup hE trivial fun t u hp => ?_)
  have hpaired : u.db.Paired := hp.overlay.1
  obtain ⟨w, hw, hfind, -, hs⟩ := hpaired.walletByUserId (huser.mono (grows_of_runs hp.runs))
  have hfind' : (Query.walletByUserId userId).run (t.view i .pool) = some w := by
    rw [← hfind, hp.own.db_quiet rfl]
    rfl
  rw [hfind']
  exact h w u hp.runs hs ⟨w, hw, rfl⟩

/-- A PIN can be verified only if there is such a user. -/
theorem verifyPin (hE : ∀ e : Err, e.isInfrastructure = true → E e)
    (hunauthorized : ∀ message, E (customError.unauthorized message))
    (hforbidden : E (customError.forbidden "you need to set up your transaction pin first"))
    {userId pin : String} :
    OverThrows (owners P config A) q i (AuthService.verifyPin userId pin)
      (fun _ u => u.db.HasUser userId) E s := by
  refine bind (lookup hE trivial fun t u hp => ?_)
  have hfound : ∀ user, (Query.userById userId).run (t.view i .pool) = some user →
      u.db.HasUser userId := by
    intro user h
    have hid := List.find?_some h
    rw [hp.own.db_quiet rfl]
    exact ⟨user, List.mem_of_find?_eq_some h, of_decide_eq_true hid⟩
  refine bind (orThrow (fun _ => hunauthorized _) fun user huser => bind (throwIf (fun _ => hforbidden)
    fun _ => of_throws ?_ ?_ fun _ v hr => (hfound user huser).mono (grows_of_runs hr)))
  · exact AuthCredentialService.within_checkSecret ownersDemand_common trivial (.perform trivial)
      fun _ _ => .perform trivial
  · exact .checkSecret hE hunauthorized (.perform hE rfl) fun _ _ => .perform hE rfl

theorem insert (hE : ∀ e : Err, e.isInfrastructure = true → E e)
    {data : WalletTransactionRepository.CreateWalletTransactionData} {rest : WalletTransaction → Program α}
    (h : ∀ row u, OverThrows (owners P config A) q i (rest row) Q E u) :
    OverThrows (owners P config A) q i (WalletTransactionRepository.insert data >>= rest) Q E s :=
  bind (of_throws (within_insert (allowed_of_inner ownersDemand_common) fun _ _ => rfl) (.insert hE)
    fun row u _ => h row u)

theorem requireNgn (hbad : ∀ message, E (customError.badRequest message)) {currency : Option String}
    {rest : String → Program α} (h : ∀ currency, OverThrows (owners P config A) q i (rest currency) Q E s) :
    OverThrows (owners P config A) q i (requireNgn P currency >>= rest) Q E s :=
  bind (bind (throwIf (fun _ => hbad _) fun _ => ret (h _)))

end OverThrows

/-! ### The errors that cannot occur -/

/-- What the services throw if a wallet that has to be there is missing or locked. -/
def Call.Impossible : Call → Err → Prop
  | .login _, e => e = customError.internalServerError "Wallet missing for user"
  | .postTransfers .., e => e = customError.notFound "Wallet not found" ∨
      ∃ walletId, e = .error ("Wallet not found: " ++ walletId)
  | .postWithdrawals .., e => e = customError.notFound "Wallet not found" ∨
      e = customError.notFound "Recipient wallet not found" ∨
        e = customError.unprocessableEntity "Wallet is not active"
  | _, _ => False

namespace Call

variable {call : Call} {message : String}

theorem possible_of_infrastructure (call : Call) (e : Err) (he : e.isInfrastructure = true) :
    ¬call.Impossible e := by
  cases e with
  | app code message => cases he
  | error message => cases he
  | prisma code => cases call <;> simp [Impossible, customError.notFound,
      customError.internalServerError, customError.unprocessableEntity]
  | network => cases call <;> simp [Impossible, customError.notFound,
      customError.internalServerError, customError.unprocessableEntity]

/-- Errors with another code are none of these. -/
theorem possible_of_code {code : ErrorCode} (hnotFound : code ≠ .notFound)
    (hunprocessable : code ≠ .unprocessableEntity) (hinternal : code ≠ .internalServerError) :
    ¬call.Impossible (.app code message) := by
  cases call <;> simp [Impossible, customError.notFound, customError.internalServerError,
    customError.unprocessableEntity, hnotFound, hunprocessable, hinternal]

theorem possible_badRequest (message : String) : ¬call.Impossible (customError.badRequest message) :=
  possible_of_code (by nofun) (by nofun) (by nofun)

theorem possible_unauthorized (message : String) :
    ¬call.Impossible (customError.unauthorized message) :=
  possible_of_code (by nofun) (by nofun) (by nofun)

theorem possible_forbidden (message : String) : ¬call.Impossible (customError.forbidden message) :=
  possible_of_code (by nofun) (by nofun) (by nofun)

theorem possible_conflict (message : String) : ¬call.Impossible (customError.conflict message) :=
  possible_of_code (by nofun) (by nofun) (by nofun)

theorem possible_of_payment {actor : JwtPayloadUser} {header : Option String} {dto : CreateTransferDto}
    (e : Err) (he : PaymentError e) : ¬(postTransfers actor header dto).Impossible e := by
  have different {text walletId : String} (hne : text.toList.head? ≠ some 'W') :
      text ≠ "Wallet not found: " ++ walletId := by
    rintro rfl
    exact hne (by rw [String.toList_append]; rfl)
  cases he with
  | network => exact possible_of_infrastructure _ _ rfl
  | json =>
      rintro (h | ⟨walletId, h⟩)
      · cases h
      · exact different (by decide) (Err.error.inj h)
  | null =>
      rintro (h | ⟨walletId, h⟩)
      · cases h
      · exact different (by decide) (Err.error.inj h)
  | link =>
      rintro (h | ⟨walletId, h⟩)
      · cases h
      · exact different (by decide) (Err.error.inj h)
  | badGateway message => exact possible_of_code (by nofun) (by nofun) (by nofun)
  | serviceUnavailable message => exact possible_of_code (by nofun) (by nofun) (by nofun)

end Call

theorem badRequest_of_header {header : Option String} {e : Err}
    (h : requireIdempotencyKey header = .error e) : ∃ message, e = customError.badRequest message := by
  unfold requireIdempotencyKey at h
  split at h
  · cases h
    exact ⟨_, rfl⟩
  · split at h
    · cases h
      exact ⟨_, rfl⟩
    · split at h
      · cases h
      · cases h
        exact ⟨_, rfl⟩

/-! ### The programs -/

variable {α : Type} {Q : α → World → Prop}

/-- The errors that are possible for the call. -/
def Call.Possible (call : Call) (e : Err) : Prop := ¬call.Impossible e

namespace AuthService

theorem possible_login {dto : LoginDto} :
    OverThrows (owners P config A) q i (login P dto) (fun _ _ => True) (Call.Possible (.login dto)) s := by
  have hE : ∀ e : Err, e.isInfrastructure = true → Call.Possible (.login dto) e :=
    Call.possible_of_infrastructure _
  refine .bind (.lookup hE trivial fun t u hp => ?_)
  refine .bind (.orThrow (fun _ => Call.possible_unauthorized _) fun user hfound => ?_)
  have huser : u.db.HasUser user.id := by
    rw [hp.own.db_quiet rfl]
    exact ⟨user, List.mem_of_find?_eq_some hfound, rfl⟩
  refine .bind (.of_throws ?_ ?_ fun _ v hr => ?_)
  · exact AuthCredentialService.within_verifyPasswordOrThrow ownersDemand_common trivial
      fun _ _ _ => trivial
  · exact .verifyPasswordOrThrow hE Call.possible_unauthorized
  · exact .findByUserId hE (huser.mono (grows_of_runs hr)) fun wallet _ _ _ _ => .ret trivial

end AuthService

namespace TransferCreateService

variable {actor : JwtPayloadUser} {header : Option String} {dto : CreateTransferDto} {key : String}

/-- The wallet of the transfer can be locked. -/
theorem possible_postPending {input : PostCreditPendingInput} (hwallet : s.db.HasWallet input.walletId) :
    OverThrows (owners P config A) q i (WalletLedgerService.postCreditPending input)
      (fun _ _ => True) (Call.Possible (.postTransfers actor header dto)) s := by
  have hE : ∀ e : Err, e.isInfrastructure = true → Call.Possible (.postTransfers actor header dto) e :=
    Call.possible_of_infrastructure _
  refine .bind (.throwIf (fun _ => Call.possible_badRequest _) fun _ => ?_)
  refine .bind (.lookup hE trivial fun t u hp => ?_)
  have hwallet : u.db.HasWallet input.walletId := hwallet.mono (grows_of_runs hp.runs)
  cases (Query.walletTransactionByIdempotencyKey input.idempotencyKey).run (t.view i .pool) with
  | some existing => exact .ret trivial
  | none =>
      refine .transaction hE ownersDemand_bounds fun v hr => ?_
      refine .bind ((OverThrows.lockWalletRow hE (hwallet.mono (grows_of_runs hr))).mono fun _ _ _ => ?_)
      refine .bind (.lookup hE trivial fun t u _ => ?_)
      cases (Query.walletTransactionByIdempotencyKey input.idempotencyKey).run (t.view i .tx) with
      | some existing => exact .ret fun _ _ => trivial
      | none =>
          exact .insert hE fun _ _ => .ret fun _ _ => trivial

theorem possible_open {amount : ℤ} {currency bodyHash : String} (huser : s.db.HasUser actor.userId) :
    OverThrows (owners P config A) q i (open' config actor amount currency key bodyHash)
      (fun _ _ => True) (Call.Possible (.postTransfers actor header dto)) s := by
  have hE : ∀ e : Err, e.isInfrastructure = true → Call.Possible (.postTransfers actor header dto) e :=
    Call.possible_of_infrastructure _
  refine .findByUserId hE huser fun wallet u _ _ hwallet => .bind (.ret ?_)
  refine .bind (.lookup hE trivial fun t v hp => ?_)
  refine .bind (.orThrow (fun _ => Call.possible_unauthorized _) fun user _ => ?_)
  refine .bind (.bind (.command_plain hE trivial rfl fun _ v' uuid hp' => .ret ?_))
  refine .bind (.bind (.command_plain hE trivial rfl fun _ v'' stamp hp'' => ?_))
  refine .command_plain hE trivial rfl fun t' w (transfer : Transfer) hp₃ => ?_
  obtain ⟨hrow, -⟩ := hp₃.own.write_eq
  have hlocked : (pendingCredit transfer key).walletId = wallet.id := by
    cases hrow
    rfl
  have hg : u.db.Grows w.db := grows_of_runs
    (((hp.runs.trans hp'.runs).trans hp''.runs).trans hp₃.runs)
  refine .bind ((possible_postPending (by rw [hlocked]; exact hwallet.mono hg)).mono fun _ _ _ => ?_)
  refine .bind (.of_throws (.perform trivial) (.initiatePayment Call.possible_of_payment)
    fun (payment : InitiatePaymentResult) _ _ => ?_)
  refine .bind (.orThrow (fun _ => Call.possible_of_payment _ .link) fun checkoutUrl _ => ?_)
  exact .bind (.command_plain hE trivial rfl fun _ _ _ _ => .ret trivial)

theorem possible_create : OverThrows (owners P config A) q i (create P config actor dto key)
    (fun _ _ => True) (Call.Possible (.postTransfers actor header dto)) s := by
  have hE : ∀ e : Err, e.isInfrastructure = true → Call.Possible (.postTransfers actor header dto) e :=
    Call.possible_of_infrastructure _
  refine .bind ((OverThrows.verifyPin hE Call.possible_unauthorized (Call.possible_forbidden _)).mono
    fun _ u huser => .requireNgn Call.possible_badRequest fun currency => ?_)
  refine .bind (.lookup hE trivial fun t v hp => ?_)
  cases (Query.transferByUserAndIdempotencyKey actor.userId key).run (t.view i .pool) with
  | some existing => exact .bind (.throwIf (fun _ => Call.possible_conflict _) fun _ => .ret trivial)
  | none => exact possible_open (huser.mono (grows_of_runs hp.runs))

end TransferCreateService

/-! ### Withdrawals -/

namespace WithdrawalRepository

variable {actor : JwtPayloadUser} {header : Option String} {dto : CreateWithdrawalDto}

/-- An error that the `catch` around the transaction passes on. -/
def PassedOn (actor : JwtPayloadUser) (header : Option String) (dto : CreateWithdrawalDto) (e : Err) :
    Prop :=
  Call.Possible (.postWithdrawals actor header dto) e ∧ startsWith e.message "Wallet not found:" = false

theorem passedOn_of_infrastructure (e : Err) (he : e.isInfrastructure = true) :
    PassedOn actor header dto e := by
  refine ⟨Call.possible_of_infrastructure _ e he, ?_⟩
  cases e with
  | app code message => cases he
  | error message => cases he
  | prisma code => cases code <;> decide +kernel
  | network => decide +kernel

theorem passedOn_insufficient :
    PassedOn actor header dto (customError.unprocessableEntity "Insufficient wallet balance") := by
  refine ⟨?_, by decide +kernel⟩
  simp [Call.Possible, Call.Impossible, customError.notFound, customError.unprocessableEntity]

theorem possible_rethrowWalletMissing {body : Program α}
    (h : OverThrows (owners P config A) q i body (fun _ _ => True) (PassedOn actor header dto) s) :
    OverThrows (owners P config A) q i (rethrowWalletMissing body) (fun _ _ => True)
      (Call.Possible (.postWithdrawals actor header dto)) s := by
  refine .tryCatch h fun e u he => ?_
  show OverThrows _ q i (if _ then _ else _) _ _ u
  rw [if_neg (by rw [he.2]; nofun)]
  exact .fail he.1

theorem possible_executeP2p {data : ExecuteP2pWithdrawalData}
    (hsender : s.db.HasWallet data.senderWalletId)
    (hdestination : s.db.HasWallet data.destinationWalletId) :
    OverThrows (owners P config A) q i (executeP2p data) (fun _ _ => True)
      (Call.Possible (.postWithdrawals actor header dto)) s := by
  have hE : ∀ e : Err, e.isInfrastructure = true → PassedOn actor header dto e := passedOn_of_infrastructure
  refine .bind (.lookup (fun e he => (hE e he).1) trivial fun t u hp => ?_)
  cases (Query.withdrawalByUserAndIdempotencyKey data.userId data.idempotencyKey).run (t.view i .pool) with
  | some existing => exact .bind (.throwIf (fun _ => Call.possible_conflict _) fun _ => .ret trivial)
  | none =>
      refine possible_rethrowWalletMissing (.transaction hE ownersDemand_bounds fun v hr => ?_)
      refine .bind (.lookup hE trivial fun t' v' hp' => ?_)
      cases (Query.withdrawalByUserAndIdempotencyKey data.userId data.idempotencyKey).run (t'.view i .tx) with
      | some existing => exact .ret fun _ _ => trivial
      | none =>
          have hg : s.db.Grows v'.db := grows_of_runs ((hp.runs.trans hr).trans hp'.runs)
          have hwallets : ∀ walletId ∈ sortWalletIds [data.senderWalletId, data.destinationWalletId],
              v'.db.HasWallet walletId := by
            intro walletId hmem
            rw [sortWalletIds, List.mem_insertionSort] at hmem
            rcases List.mem_cons.mp hmem with rfl | hmem
            · exact hsender.mono hg
            · rw [List.mem_singleton.mp hmem]
              exact hdestination.mono hg
          refine .bind ((OverThrows.lockWalletRows hE hwallets).mono fun _ _ _ => ?_)
          refine .bind (.command_plain hE trivial rfl fun _ _ (available : ℤ) _ => ?_)
          refine .bind (.throwIf (fun _ => passedOn_insufficient) fun _ => ?_)
          refine .bind (.command_plain hE trivial rfl fun _ _ stamp _ => ?_)
          refine .bind (.command_plain hE rfl rfl fun _ _ (withdrawal : Withdrawal) _ => ?_)
          refine .insert hE fun debit _ => .insert hE fun credit _ => ?_
          exact .bind (.command_plain hE rfl rfl fun _ _ _ _ => .ret fun _ _ => trivial)

theorem possible_executeBankAccept {data : ExecuteBankWithdrawalData}
    (hwallet : s.db.HasWallet data.walletId) :
    OverThrows (owners P config A) q i (executeBankAccept data) (fun _ _ => True)
      (Call.Possible (.postWithdrawals actor header dto)) s := by
  have hE : ∀ e : Err, e.isInfrastructure = true → PassedOn actor header dto e := passedOn_of_infrastructure
  refine .bind (.lookup (fun e he => (hE e he).1) trivial fun t u hp => ?_)
  cases (Query.withdrawalByUserAndIdempotencyKey data.userId data.idempotencyKey).run (t.view i .pool) with
  | some existing => exact .bind (.throwIf (fun _ => Call.possible_conflict _) fun _ => .ret trivial)
  | none =>
      refine possible_rethrowWalletMissing (.transaction hE ownersDemand_bounds fun v hr => ?_)
      refine .bind (.lookup hE trivial fun t' v' hp' => ?_)
      cases (Query.withdrawalByUserAndIdempotencyKey data.userId data.idempotencyKey).run (t'.view i .tx) with
      | some existing => exact .ret fun _ _ => trivial
      | none =>
          have hg : s.db.Grows v'.db := grows_of_runs ((hp.runs.trans hr).trans hp'.runs)
          refine .bind ((OverThrows.lockWalletRow hE (hwallet.mono hg)).mono fun _ _ _ => ?_)
          refine .bind (.command_plain hE trivial rfl fun _ _ (available : ℤ) _ => ?_)
          refine .bind (.throwIf (fun _ => passedOn_insufficient) fun _ => ?_)
          refine .bind (.command_plain hE trivial rfl fun _ _ stamp _ => ?_)
          refine .bind (.command_plain hE rfl rfl fun _ _ (withdrawal : Withdrawal) _ => ?_)
          refine .insert hE fun debit _ => ?_
          exact .bind (.command_plain hE rfl rfl fun _ _ _ _ => .ret fun _ _ => trivial)

end WithdrawalRepository

section Services

variable {actor : JwtPayloadUser} {header : Option String} {dto : CreateWithdrawalDto} {key : String}

theorem possible_recipientNotFound :
    Call.Possible (.postWithdrawals actor header dto)
      (customError.notFound "Recipient user not found") := by
  simp [Call.Possible, Call.Impossible, customError.notFound, customError.unprocessableEntity]

theorem WithdrawalP2pService.possible_create (huser : s.db.HasUser actor.userId) :
    OverThrows (owners P config A) q i (create P actor dto key) (fun _ _ => True)
      (Call.Possible (.postWithdrawals actor header dto)) s := by
  have hE : ∀ e : Err, e.isInfrastructure = true → Call.Possible (.postWithdrawals actor header dto) e :=
    Call.possible_of_infrastructure _
  refine .requireNgn Call.possible_badRequest fun currency => ?_
  refine .bind (.throwIf (fun _ => Call.possible_badRequest _) fun _ => ?_)
  refine .findByUserId hE huser fun sender u _ hsender hsenderRow => .bind (.ret ?_)
  refine .bind (.lookup hE trivial fun t v hp => ?_)
  refine .bind (.orThrow (fun _ => possible_recipientNotFound) fun recipient hfound => ?_)
  have hrecipient : v.db.HasUser recipient.id := by
    rw [hp.own.db_quiet rfl]
    exact ⟨recipient, List.mem_of_find?_eq_some hfound, rfl⟩
  refine .bind (.throwIf (fun _ => Call.possible_badRequest _) fun _ => ?_)
  refine .findByUserId hE hrecipient fun wallet w hr hactive hrow => .bind (.ret ?_)
  refine .bind (.throwIf (fun hlocked => ?_) fun _ => ?_)
  · rcases hlocked with h | h
    · exact absurd hactive h
    · exact absurd hsender h
  · have hg : u.db.Grows w.db := grows_of_runs (hp.runs.trans hr)
    exact .bind ((WithdrawalRepository.possible_executeP2p (hsenderRow.mono hg) hrow).mono
      fun _ _ _ => .ret trivial)

theorem WithdrawalBankService.possible_create (huser : s.db.HasUser actor.userId) :
    OverThrows (owners P config A) q i (create P actor dto key) (fun _ _ => True)
      (Call.Possible (.postWithdrawals actor header dto)) s := by
  have hE : ∀ e : Err, e.isInfrastructure = true → Call.Possible (.postWithdrawals actor header dto) e :=
    Call.possible_of_infrastructure _
  refine .requireNgn Call.possible_badRequest fun currency => ?_
  refine .bind (.throwIf (fun _ => Call.possible_badRequest _) fun _ => ?_)
  refine .findByUserId hE huser fun wallet u _ hactive hrow => .bind (.ret ?_)
  refine .bind (.throwIf (fun hlocked => absurd hactive hlocked) fun _ => ?_)
  refine .bind (.command_plain hE trivial rfl fun _ v uuid hp => ?_)
  refine .bind ((WithdrawalRepository.possible_executeBankAccept
    (hrow.mono (grows_of_runs hp.runs))).mono fun result _ _ => ?_)
  show OverThrows _ q i (if _ then _ else _) _ _ _
  split
  · exact .bind (.command_plain hE trivial rfl fun _ _ _ _ => .ret trivial)
  · exact .ret trivial

theorem WithdrawalsService.possible_create :
    OverThrows (owners P config A) q i (create P actor dto key) (fun _ _ => True)
      (Call.Possible (.postWithdrawals actor header dto)) s := by
  refine .bind ((OverThrows.verifyPin (Call.possible_of_infrastructure _) Call.possible_unauthorized
    (Call.possible_forbidden _)).mono fun _ u huser => ?_)
  cases dto.destinationType with
  | wallet => exact WithdrawalP2pService.possible_create huser
  | bank => exact WithdrawalBankService.possible_create huser

end Services

/-! ### The certificate -/

/-- The wallet of a new user is made for it. -/
theorem within_register_owners {dto : RegisterDto} : (AuthService.register P dto).Within ownersDemand := by
  refine .bind within_throwIf fun _ => .bind within_throwIf fun _ => ?_
  refine .bind (.perform trivial) fun _ => .bind within_throwIf fun _ => ?_
  refine .bind (.perform trivial) fun _ => .bind within_throwIf fun _ => ?_
  refine .bind (.perform trivial) fun _ => .bind ?_ fun _ => .ret
  exact .bind (.perform trivial) fun _ => .bind (.perform trivial) fun _ => .perform ⟨rfl, rfl, rfl⟩

theorem ownersDemand_of_footprint {call : Call} (hcall : ∀ dto, call ≠ .register dto)
    (hc : call.footprint c) : ownersDemand c := by
  unfold ownersDemand
  split
  · exact inTransaction_of_writes hc
  · cases call with
    | register dto => exact absurd rfl (hcall dto)
    | _ => exact hc.elim
  · trivial

theorem possible_program {call : Call} (hcall : call.isApi = true) :
    OverThrows (owners P config A) call i (program P config call) (fun _ _ => True)
      (Call.Possible call) s := by
  have hE : ∀ e : Err, e.isInfrastructure = true → call.Possible e := Call.possible_of_infrastructure _
  have within (hne : ∀ dto, call ≠ .register dto) :
      Over (owners P config A) call i (program P config call) (fun _ _ => True) s :=
    .within ((program_within hcall).mono fun c hc => ownersDemand_of_footprint hne hc) fun _ _ _ => trivial
  cases call with
  | register dto => exact .of_over (fun _ => nofun) (.map (.within within_register_owners fun _ _ _ => trivial))
  | login dto => exact .map (AuthService.possible_login)
  | postTransfers actor header dto =>
      refine .bind ?_
      cases hkey : requireIdempotencyKey header with
      | error e =>
          obtain ⟨message, rfl⟩ := badRequest_of_header hkey
          exact .fail (Call.possible_badRequest _)
      | ok key => exact .ret (.map TransferCreateService.possible_create)
  | postWithdrawals actor header dto =>
      refine .bind ?_
      cases hkey : requireIdempotencyKey header with
      | error e =>
          obtain ⟨message, rfl⟩ := badRequest_of_header hkey
          exact .fail (Call.possible_badRequest _)
      | ok key => exact .ret (.map WithdrawalsService.possible_create)
  | _ => exact .of_over (fun _ => nofun) (within nofun)

variable (P config A) in
theorem owners_certified : Certified (walletApi P config) (api P config A) World.initial
    ((owners P config A).layered.comap id) (fun _ _ _ _ => True) fun call _ e _ => call.Possible e :=
  Overlay.certified (api_certified P config A .true) ⟨.empty, fun _ _ hopen => by cases hopen⟩
    (fun _ h => ⟨h.1, h.2.crash⟩) fun hcall _ => possible_program hcall

/-! ### The result -/

section Result

open Schedule

variable {cfg : Machine.Config (walletApi P config)}

/-- In every state that a run reaches, every user has one wallet, which is active and
in NGN, and every wallet belongs to a user. So whatever fails, no request ends because
a wallet is missing that has to be there, or because a wallet is not active. -/
theorem every_user_has_a_wallet (h : Machine.Reachable (requests P config) World.initial cfg) :
    (∀ u ∈ cfg.state.db.users, ∃ w, cfg.state.db.wallets.filter (·.userId = u.id) = [w] ∧
      w.currency = "NGN" ∧ w.status = .active) ∧
    (∀ w ∈ cfg.state.db.wallets, ∃ u ∈ cfg.state.db.users, u.id = w.userId) ∧
    ∀ i call e, cfg.threads i = some (.running call (.fail e)) → ¬Call.Impossible call e := by
  have C := owners_certified P config fun _ _ _ _ _ => True
  obtain ⟨hbase, hpaired, -⟩ := C.inv h
  refine ⟨fun u hu => hpaired.wallets_eq_singleton hbase.2.1 ⟨u, hu, rfl⟩,
    fun w hw => hpaired.user_of_wallet hw, fun i call e hth => ?_⟩
  obtain ⟨-, -, -, hpossible⟩ := C.failed h hth
  exact hpossible

/-- Ada has 1000; she can send 400 to Bob twice, but not a third time. -/
def thirdRefused : List (Machine.Action (walletApi platform mockConfig)) :=
  fundedAda ++ sendToBob 6 idempotencyKey "x1" "r2" "r3" ++ sendToBob 7 secondKey "x2" "r4" "r5" ++
    .spawn 8 (.postWithdrawals ⟨"u1"⟩ (some thirdKey) toBob) :: calm 8 12

theorem every_user_has_a_wallet_schedule :
    ∃ cfg call e, Machine.replayUnder (requests platform mockConfig) (.initial World.initial)
        thirdRefused = some cfg ∧
      ended cfg 8 = some (call, .error e) ∧ ¬Call.Impossible call e ∧
      ∃ u ∈ cfg.state.db.users, ∃ w, cfg.state.db.wallets.filter (·.userId = u.id) = [w] := by
  have hrun : (Machine.replayUnder (requests platform mockConfig) (.initial World.initial)
      thirdRefused).any fun cfg =>
        cfg.state.db.users ≠ [] ∧ (ended cfg 8).any fun r => !r.2.isOk := by decide +kernel
  obtain ⟨cfg, hcfg, h⟩ := (Option.any_eq_true ..).mp hrun
  obtain ⟨husers, hended⟩ := of_decide_eq_true h
  obtain ⟨⟨call, r⟩, hended, herror⟩ := (Option.any_eq_true ..).mp hended
  obtain ⟨hwallets, -, hpossible⟩ := every_user_has_a_wallet (.replayUnder hcfg)
  cases r with
  | ok a => cases herror
  | error e =>
      obtain ⟨u, hu⟩ := List.exists_mem_of_ne_nil _ husers
      obtain ⟨w, hw, -⟩ := hwallets u hu
      exact ⟨cfg, call, e, hcfg, hended, hpossible 8 call e (threads_of_ended hended), u, hu, w, hw⟩

end Result

end WalletApi
