import WalletApi.Runs.Users
import WalletApi.Safety.Api

/-!
The transaction PIN is written once.

`createPin` reads the row of the user, refuses if there is a PIN, and then checks
the password and hashes the PIN before it writes. The write itself does not look
at the row again. So two requests that overlap both go through, the second one
replaces the PIN of the first and lifts a lock that wrong PINs have caused since.

As long as no request writes a PIN between the reading and the writing of another
one for the same user, all is well: the write finds the row without a PIN, as it
was read, and a row without a PIN has no lock to lift.
-/

namespace WalletApi

open Concurrency ReadCommitted Machine Schedule

variable {P : Platform} {config : Config} {A : Assumptions (walletApi P config)} {q : Call} {i : ℕ}
  {tr : Trace} {id : String}

/-! ### What a request knows when it writes to a user -/

/-- The row of the user is read. -/
abbrev readUser (id : String) : Cmd := .select .pool (.userById id)

/-- `setPinHash`. -/
abbrev setPin (id pinHash : String) : Cmd :=
  .write .pool (.updateUser id
    { pinHash := some pinHash, pinTryCount := some 0, pinLockedUntil := some none })

/-- The thread has read the user, with a PIN or without. -/
def HasRead (id : String) (hasPin : Bool) (tr : Trace) : Prop :=
  ∃ user : User, truthy user.pinHash = hasPin ∧
    (⟨readUser id, .ok (some user)⟩ : Exchange signature) ∈ tr

theorem HasRead.append {hasPin : Bool} (h : HasRead id hasPin tr) (new : Trace) :
    HasRead id hasPin (new ++ tr) := by
  obtain ⟨user, hpin, hmem⟩ := h
  exact ⟨user, hpin, List.mem_append_right _ hmem⟩

/-- The request checks a PIN. -/
def Call.ChecksPin : Call → Prop
  | .postTransfers .. | .postWithdrawals .. => True
  | _ => False

variable (P) in
/-- Why a thread may patch the row of a user. -/
inductive Patches (call : Call) (tr : Trace) (id : String) : UserUpdate → Prop
  | password {data : UserUpdate} (h : data.SparesPin) : Patches call tr id data
  | count {data : UserUpdate} (hcall : call.ChecksPin) (hpin : data.pinHash = none)
      (hread : HasRead id true tr) : Patches call tr id data
  | pin (salt pin : String) (hread : HasRead id false tr) :
      Patches call tr id
        { pinHash := some (P.bcryptHash salt pin)
          pinTryCount := some 0
          pinLockedUntil := some none }

variable (P) in
def pinDemand (call : Call) (tr : Trace) : Cmd → Prop
  | .write .pool (.createUserWithWallet user _) => user.Fresh
  | .write .pool (.updateUser id data) => Patches P call tr id data
  | _ => True

/-- A request that has created a PIN has written it. -/
def pinAnswer : Call → Response → Trace → Prop
  | .createPin actor _, _, tr => ∃ (pinHash : String) (user : User),
      (⟨setPin actor.userId pinHash, .ok user⟩ : Exchange signature) ∈ tr
  | _, _, _ => True

/-- The command leaves the PINs alone. -/
def Cmd.SparesPins : Cmd → Prop
  | .write .pool (.createUserWithWallet user _) => user.Fresh
  | .write .pool (.updateUser _ data) => data.SparesPin
  | _ => True

theorem sparesPins_of_common (c : Cmd) (hc : c.common = true) : c.SparesPins := by
  cases c with
  | write client w => cases hc
  | _ => trivial

theorem Cmd.SparesPins.demand {c : Cmd} (h : c.SparesPins) (call : Call) (tr : Trace) :
    pinDemand P call tr c := by
  unfold pinDemand
  split
  · exact h
  · exact .password h
  · trivial

theorem alone_sparesPins {α : Type} {p : Program α} (hp : p.Within Cmd.SparesPins)
    {Q : α → Trace → Prop} (hQ : ∀ a new, Q a (new ++ tr)) :
    Alone P config A (pinDemand P q) q i p Q tr :=
  .within hp (fun _ _ hc => hc.demand q _) fun a _ _ => hQ a _

/-- A check of a PIN writes only to a user whose PIN it has read. -/
theorem alone_verifyPin (hq : q.ChecksPin) {userId pin : String} :
    Alone P config A (pinDemand P q) q i (AuthService.verifyPin userId pin) (fun _ _ => True) tr := by
  refine .bind (.select trivial fun d => ?_)
  refine .bind (.orThrow fun user hfound => .bind (.throwIf fun hpin => ?_))
  obtain ⟨-, rfl⟩ := find?_user hfound
  have hread : HasRead user.id true (⟨readUser user.id, .ok (some user)⟩ :: tr) :=
    ⟨user, by simpa using hpin, .head _⟩
  let patches (c : Cmd) : Prop := c.SparesPins ∨
    ∃ data : UserUpdate, c = .write .pool (.updateUser user.id data) ∧ data.pinHash = none
  have hcommon (c : Cmd) (hc : c.common = true) : patches c := .inl (sparesPins_of_common c hc)
  have hpatch (data : UserUpdate) (hdata : data.pinHash = none) :
      (write .pool (.updateUser user.id data)).Within patches :=
    .perform (.inr ⟨data, rfl, hdata⟩)
  rw [hfound]
  refine .within (C := patches) (AuthCredentialService.within_checkSecret hcommon (.inl trivial)
    (hpatch _ rfl) fun _ _ => hpatch _ rfl) (fun c new hc => ?_) fun _ _ _ => trivial
  rcases hc with hc | ⟨data, rfl, hdata⟩
  · exact hc.demand q _
  · exact .count hq hdata (hread.append new)

theorem alone_createPin {actor : JwtPayloadUser} {dto : CreatePinDto} :
    Alone P config A (pinDemand P q) q i (AuthService.createPin actor dto)
      (fun text => pinAnswer (.createPin actor dto) (.message text)) tr := by
  refine .bind (.throwIf fun _ => .bind (.select trivial fun d => ?_))
  refine .bind (.orThrow fun user hfound => .bind (.throwIf fun hpin => ?_))
  have hid : user.id = actor.userId := (find?_user hfound).2
  have hread : HasRead user.id false (⟨readUser actor.userId, .ok (some user)⟩ :: tr) :=
    ⟨user, by simpa using hpin, hid ▸ .head _⟩
  rw [hfound]
  refine .bind (alone_sparesPins (AuthCredentialService.within_verifyPasswordOrThrow
    sparesPins_of_common trivial fun _ _ h => h) fun _ new => ?_)
  refine .bind (.command trivial fun ch _ _ (pinHash : String) _ hhash => ?_)
  obtain rfl : P.bcryptHash ch.text dto.pin = pinHash := by
    cases hhash
    rfl
  refine .bind (.command ?_ fun _ _ _ (row : User) _ _ => .ret ?_)
  · exact .pin ch.text dto.pin ((hread.append new).append [_])
  · refine ⟨P.bcryptHash ch.text dto.pin, row, ?_⟩
    rw [← hid]
    exact .head _

/-- What a request for a funding does after the check of the PIN. -/
theorem alone_createTransfer {actor : JwtPayloadUser} {dto : CreateTransferDto} {key : String}
    (hq : q.ChecksPin) :
    Alone P config A (pinDemand P q) q i (TransferCreateService.create P config actor dto key)
      (fun _ _ => True) tr := by
  have hC := sparesPins_of_common
  refine .bind ((alone_verifyPin hq).mono fun _ _ _ => alone_sparesPins ?_ fun _ _ => trivial)
  refine .bind within_requireNgn fun _ => .bind (within_common hC rfl) fun existing => ?_
  cases existing with
  | some t => exact .bind within_throwIf fun _ => .ret
  | none =>
      refine .bind (within_common hC rfl) fun _ => .bind within_orThrow fun _ => ?_
      refine .bind (within_common hC rfl) fun _ => .bind within_orThrow fun _ => ?_
      refine .bind (.bind (within_common hC rfl) fun _ => .ret) fun _ => ?_
      refine .bind (.bind (within_common hC rfl) fun _ => .perform trivial) fun _ => ?_
      refine .bind (WalletLedgerService.within_postCreditPending hC fun _ _ => trivial) fun _ => ?_
      exact .bind (.perform trivial) fun _ => .bind within_orThrow fun _ =>
        .bind (.perform trivial) fun _ => .ret

/-- A call that neither checks a PIN nor a password writes to no user that is there. -/
theorem sparesPins_of_footprint {call : Call} {c : Cmd} (hc : call.footprint c)
    (hcall : ∀ client id data, ¬call.writes client (.updateUser id data))
    (hregister : ∀ client user wallet, ¬call.writes client (.createUserWithWallet user wallet)) :
    c.SparesPins := by
  cases c with
  | write client w =>
      cases client with
      | tx => trivial
      | pool =>
          cases w with
          | createUserWithWallet user wallet => exact absurd hc (hregister _ _ _)
          | updateUser id data => exact absurd hc (hcall _ _ _)
          | _ => trivial
  | _ => trivial

theorem pin_justified (hA : ∀ call, A.admits call → Call.isApi call = true) :
    Justified P config A (pinDemand P) pinAnswer := by
  intro call i hcall
  have hC := sparesPins_of_common
  cases call with
  | register dto =>
      exact .map (alone_sparesPins (within_register hC fun _ _ h => h) fun _ _ => trivial)
  | login dto =>
      exact .map (alone_sparesPins (within_login hC (fun _ => trivial) fun _ _ h => h)
        fun _ _ => trivial)
  | createPin actor dto => exact .map alone_createPin
  | postTransfers actor header dto =>
      refine .bind ?_
      cases requireIdempotencyKey header with
      | error e => exact .fail
      | ok key => exact .ret (.map (alone_createTransfer trivial))
  | postWithdrawals actor header dto =>
      have hq : (Call.postWithdrawals actor header dto).ChecksPin := trivial
      refine .bind ?_
      cases requireIdempotencyKey header with
      | error e => exact .fail
      | ok key =>
          refine .ret (.map (.bind ((alone_verifyPin hq).mono fun _ _ _ =>
            alone_sparesPins ?_ fun _ _ => trivial)))
          split
          · exact WithdrawalP2pService.within_create hC (fun _ => trivial)
              fun _ _ _ _ _ _ _ _ _ => trivial
          · exact WithdrawalBankService.within_create hC (fun _ => trivial)
              (fun _ _ _ _ _ _ _ _ => trivial) fun _ => trivial
  | _ =>
      refine alone_sparesPins ((program_within (hA _ hcall)).mono fun c hc =>
        sparesPins_of_footprint hc (fun client _ _ h => ?_) fun client _ _ h => ?_) fun _ _ => trivial
      · cases client <;> exact h
      · cases client <;> exact h

/-! ### Runs -/

/-- The row of the user holds a PIN. -/
def HasPin (row : Option User) : Prop := ∃ user, row = some user ∧ truthy user.pinHash = true

section Runs

variable {cfg cfg' : Machine.Config (walletApi P config)} {e : Event}
  (hA : ∀ call, A.admits call → Call.isApi call = true)

include hA in
/-- What justified an event when it happened. -/
theorem demand_of_happened (h : Happened A e cfg cfg') :
    ∃ call k, cfg.threads e.pid = some (.running call (.op e.cmd k)) ∧
      pinDemand P call (own e.pid (World.log cfg.state)) e.cmd := by
  obtain ⟨call, k, ch, hth, -⟩ := h.step
  exact ⟨call, k, hth, (followed_of_reachable (pin_justified hA) h.before).demand hth⟩

/-- What a thread has read was so when it was read. -/
theorem exists_read (h : Reachable A World.initial cfg) {hasPin : Bool}
    (hread : HasRead id hasPin (own i (World.log cfg.state))) :
    ∃ cfg₁ later e earlier, Reachable A World.initial cfg₁ ∧ Run A cfg₁ cfg ∧
      World.history cfg.state = later ++ e :: earlier ∧ World.history cfg₁.state = e :: earlier ∧
      e.pid = i ∧ e.cmd = readUser id ∧
      ∃ user, (World.db cfg₁.state).user id = some user ∧ truthy user.pinHash = hasPin := by
  obtain ⟨user, hpin, hmem⟩ := hread
  obtain ⟨e, he, rfl, hexchange⟩ := exists_event_of_log (mem_own.mp hmem)
  obtain ⟨later, earlier, hsplit⟩ := List.append_of_mem he
  obtain ⟨cfg₀, cfg₁, hhappened, hrun, hbefore⟩ := happened_of_reachable h hsplit
  have hhistory : World.history cfg₁.state = e :: earlier := hbefore ▸ hhappened.history
  obtain ⟨call, ch, -, hexec⟩ := hhappened.exec
  obtain ⟨pid, cmd, result, took⟩ := e
  cases hexchange
  have hrow : some user = (Query.userById id).run (World.db cfg₀.state) :=
    World.select_of_exec hexec
  have hdb : World.db cfg₁.state = World.db cfg₀.state := (World.exec_quiet rfl hexec).db
  refine ⟨cfg₁, later, _, earlier, hhappened.after, hrun, hsplit, hhistory, rfl, rfl, user, ?_, hpin⟩
  rw [hdb]
  exact hrow.symm

section Hash

variable (hhash : ∀ salt pin, P.bcryptHash salt pin ≠ "")

include hA hhash

theorem hasPin_of_happened (h : Happened A e cfg cfg')
    (hpin : HasPin ((World.db cfg.state).user id)) : HasPin ((World.db cfg'.state).user id) := by
  obtain ⟨user, huser, hpin⟩ := hpin
  cases UserStep.of_happened hA h id with
  | same hsame => exact ⟨user, hsame.trans huser, hpin⟩
  | created _ _ _ hnone => rw [hnone] at huser; cases huser
  | updated data user' hcmd _ huser' hrow =>
      cases huser.symm.trans huser'
      refine ⟨user.patch data, hrow, ?_⟩
      obtain ⟨call, k, -, hdemand⟩ := demand_of_happened hA h
      rw [hcmd] at hdemand
      cases hdemand with
      | password hdata => rw [User.patch, hdata.pinHash]; exact hpin
      | count _ hdata _ => rw [User.patch, hdata]; exact hpin
      | pin salt pin _ => simp [User.patch, truthy, hhash salt pin]

/-- A user that has a PIN has one from then on. -/
theorem hasPin_of_run (h : Reachable A World.initial cfg) (hrun : Run A cfg cfg')
    (hpin : HasPin ((World.db cfg.state).user id)) : HasPin ((World.db cfg'.state).user id) := by
  obtain ⟨es, hes⟩ := history_of_run hrun
  exact user_of_run h hrun hes (fun _ _ _ _ hhappened => hasPin_of_happened hA hhash hhappened) hpin

/-- A user without a PIN is not locked out. -/
theorem unlocked_of_unset (h : Reachable A World.initial cfg) {user : User}
    (huser : (World.db cfg.state).user id = some user) (hpin : truthy user.pinHash = false) :
    user.pinLockedUntil = none := by
  induction h generalizing user with
  | initial => cases huser
  | @next cfg cfg' a hr hp hn ih =>
      cases a with
      | spawn j call =>
          obtain ⟨-, rfl⟩ := next_spawn_iff.mp hn
          exact ih huser hpin
      | crash j =>
          obtain ⟨call, p, -, rfl⟩ := next_crash_iff.mp hn
          exact ih huser hpin
      | step j ch =>
          obtain ⟨e, -, hhappened⟩ := Happened.of_step hr hp hn
          obtain ⟨call, k, -, hdemand⟩ := demand_of_happened hA hhappened
          cases UserStep.of_happened hA hhappened id with
          | same hsame => exact ih (hsame.symm.trans huser) hpin
          | created user' wallet hcmd hnone hrow =>
              cases hrow.symm.trans huser
              rw [hcmd] at hdemand
              exact User.Fresh.pinLockedUntil hdemand
          | updated data user' hcmd htook huser' hrow =>
              cases hrow.symm.trans huser
              rw [hcmd] at hdemand
              cases hdemand with
              | password hdata =>
                  have hlock : user'.pinLockedUntil = none :=
                    ih huser' (by simpa [User.patch, hdata.pinHash] using hpin)
                  simpa [User.patch, hdata.pinLockedUntil] using hlock
              | count hcall hdata hread =>
                  -- the PIN that the thread has read is still there
                  obtain ⟨cfg₁, -, -, -, hr₁, hrun, -, -, -, -, user₁, huser₁, hpin₁⟩ :=
                    exists_read hr hread
                  obtain ⟨user₂, huser₂, hpin₂⟩ :=
                    hasPin_of_run hA hhash hr₁ hrun ⟨user₁, huser₁, hpin₁⟩
                  cases huser₂.symm.trans huser'
                  rw [User.patch, hdata] at hpin
                  exact absurd (hpin₂.symm.trans hpin) (by decide)
              | pin salt pin hread => rfl

end Hash

end Runs

/-! ### One after the other -/

/-- Since the thread has read the user, no request has written a PIN for the user. -/
def UnsetSinceRead (i : ℕ) (id : String) (s : World) : Prop :=
  ∀ later e earlier, s.history = later ++ e :: earlier → e.pid = i → e.cmd = readUser id →
    ∀ e' ∈ later, e'.took = true → ∀ pinHash, e'.cmd ≠ setPin id pinHash

variable (P config) in
/-- A PIN is written only by a request that no other one has overtaken. -/
def pinsInTurn : Assumptions (walletApi P config) where
  admits call := call.isApi = true
  allows _ i c _ s := ∀ id pinHash, c = setPin id pinHash → UnsetSinceRead i id s

/-- At most one request to create a PIN for a user has succeeded. -/
def CreatedOnce (cfg : Machine.Config (walletApi P config)) : Prop :=
  ∀ i j actor dto dto' r r', ended cfg i = some (.createPin actor dto, .ok r) →
    ended cfg j = some (.createPin actor dto', .ok r') → i = j

/-- The PINs that are there stay as they are. -/
def PinsKept (d d' : Db) : Prop :=
  ∀ id user, d.user id = some user → truthy user.pinHash = true →
    ∃ user', d'.user id = some user' ∧ user'.pinHash = user.pinHash

/-- The locks that are there stay as they are. -/
def PinLocksKept (d d' : Db) : Prop :=
  ∀ id user lockedUntil, d.user id = some user → user.pinLockedUntil = some lockedUntil →
    ∃ user', d'.user id = some user' ∧ user'.pinLockedUntil = some lockedUntil

/-- The action is a step of a request to create a PIN. -/
def CreatingPin (cfg : Machine.Config (walletApi P config))
    (a : Machine.Action (walletApi P config)) : Prop :=
  ∃ i ch actor dto p, a = .step i ch ∧ cfg.threads i = some (.running (.createPin actor dto) p)

/-- In every run under the assumptions: only one request creates the PIN of a user,
no PIN is replaced, and no lock is lifted by creating a PIN. -/
def PinWrittenOnce (A : Assumptions (walletApi P config)) : Prop :=
  ∀ cfg, Reachable A World.initial cfg → CreatedOnce cfg ∧
    ∀ a cfg', A.Permits cfg a → Machine.next cfg a = some cfg' →
      PinsKept (World.db cfg.state) (World.db cfg'.state) ∧
        (CreatingPin cfg a → PinLocksKept (World.db cfg.state) (World.db cfg'.state))

section InTurn

variable {cfg cfg' : Machine.Config (walletApi P config)} {e : Event}
  (hhash : ∀ salt pin, P.bcryptHash salt pin ≠ "")

/-- A PIN is written to a row without one. -/
theorem unset_at_write (h : Happened (pinsInTurn P config) e cfg cfg') {pinHash : String}
    (hcmd : e.cmd = setPin id pinHash) {user : User}
    (huser : (World.db cfg.state).user id = some user) : truthy user.pinHash = false := by
  have hA : ∀ call, (pinsInTurn P config).admits call → Call.isApi call = true := fun _ h => h
  obtain ⟨call, k, -, hdemand⟩ := demand_of_happened hA h
  have hread : HasRead id false (own e.pid (World.log cfg.state)) := by
    rw [hcmd] at hdemand
    cases hdemand with
    | password hdata => cases hdata.pinHash
    | count _ hdata _ => cases hdata
    | pin salt pin hread => exact hread
  obtain ⟨cfg₁, later, e₁, earlier, hr₁, hrun, hsplit, hearlier, hpid, hcmd₁, user₁, huser₁, hpin₁⟩ :=
    exists_read h.before hread
  obtain ⟨call', ch, hallows, -⟩ := h.exec
  have hunset : UnsetSinceRead e.pid id cfg.state := hallows id pinHash hcmd
  let unset (row : Option User) : Prop := ∀ user, row = some user → truthy user.pinHash = false
  have hstart : unset ((World.db cfg₁.state).user id) := by
    intro user hu
    cases huser₁.symm.trans hu
    exact hpin₁
  refine user_of_run (I := unset) hr₁ hrun (hearlier ▸ hsplit) ?_ hstart user huser
  intro e' he' cfg₂ cfg₃ hhappened hkept user' huser'
  obtain ⟨call', k', -, hdemand'⟩ := demand_of_happened hA hhappened
  cases UserStep.of_happened hA hhappened id with
  | same hsame => exact hkept user' (hsame.symm.trans huser')
  | created u wallet hcmd' _ hrow =>
      cases hrow.symm.trans huser'
      rw [hcmd'] at hdemand'
      rw [User.Fresh.pinHash hdemand']
      rfl
  | updated data u hcmd' htook hu hrow =>
      cases hrow.symm.trans huser'
      have hold : truthy u.pinHash = false := hkept u hu
      have hnot := hunset later e₁ earlier hsplit hpid hcmd₁ e' he' htook
      rw [hcmd'] at hdemand' hnot
      cases hdemand' with
      | password hdata => simpa [User.patch, hdata.pinHash] using hold
      | count _ hdata _ => simpa [User.patch, hdata] using hold
      | pin salt pin _ => exact absurd rfl (hnot _)

include hhash

/-- Of two requests that have created a PIN for the same user, the second one did
not find the row without a PIN. -/
theorem not_written_twice (h : Reachable (pinsInTurn P config) World.initial cfg)
    {later earlier : List Event} {e' : Event} {pinHash pinHash' : String} {row' : User}
    (hsplit : World.history cfg.state = later ++ e :: earlier) (he' : e' ∈ earlier)
    (hcmd : e.cmd = setPin id pinHash) (hexchange' : e'.exchange = ⟨setPin id pinHash', .ok row'⟩) :
    False := by
  have hA : ∀ call, (pinsInTurn P config).admits call → Call.isApi call = true := fun _ h => h
  obtain ⟨cfg₀, cfg₁, hhappened, -, hbefore⟩ := happened_of_reachable h hsplit
  obtain ⟨later', earlier', hsplit'⟩ := List.append_of_mem (hbefore ▸ he')
  obtain ⟨cfg₂, cfg₃, hhappened', hrun, -⟩ := happened_of_reachable hhappened.before hsplit'
  -- the earlier write has left a PIN behind
  have hwritten : HasPin ((World.db cfg₃.state).user id) := by
    obtain ⟨call, k, -, hdemand⟩ := demand_of_happened hA hhappened'
    obtain ⟨call', ch, -, he⟩ := hhappened'.exec
    obtain ⟨pid, cmd, result, took⟩ := e'
    cases hexchange'
    obtain ⟨hresult, hdb⟩ := World.write_of_exec he
    obtain ⟨user, huser, -⟩ := Option.map_eq_some_iff.mp hresult
    have hrow : (World.db cfg₂.state).user id = some user := huser
    refine ⟨_, by rw [hdb, Db.user_update, if_pos rfl, hrow, Option.map_some], ?_⟩
    cases hdemand with
    | password hdata => cases hdata.pinHash
    | count _ hdata _ => cases hdata
    | pin salt pin _ => simp [User.patch, truthy, hhash salt pin]
  obtain ⟨user, huser, hpin⟩ := hasPin_of_run hA hhash hhappened'.after hrun hwritten
  exact absurd (hpin.symm.trans (unset_at_write hhappened hcmd huser)) (by decide)

omit hhash in
theorem pinsKept_of_happened (h : Happened (pinsInTurn P config) e cfg cfg') :
    PinsKept (World.db cfg.state) (World.db cfg'.state) := by
  intro id user huser hpin
  have hA : ∀ call, (pinsInTurn P config).admits call → Call.isApi call = true := fun _ h => h
  cases UserStep.of_happened hA h id with
  | same hsame => exact ⟨user, hsame.trans huser, rfl⟩
  | created _ _ _ hnone => rw [hnone] at huser; cases huser
  | updated data user' hcmd _ huser' hrow =>
      cases huser.symm.trans huser'
      refine ⟨_, hrow, ?_⟩
      obtain ⟨call, k, -, hdemand⟩ := demand_of_happened hA h
      rw [hcmd] at hdemand
      cases hdemand with
      | password hdata => rw [User.patch, hdata.pinHash, Option.none_or]
      | count _ hdata _ => rw [User.patch, hdata, Option.none_or]
      | pin salt pin _ =>
          exact absurd (hpin.symm.trans (unset_at_write h hcmd huser)) (by decide)

/-- A lock that is there belongs to a PIN, which creating a PIN does not replace. -/
theorem pinLocksKept_of_happened (h : Happened (pinsInTurn P config) e cfg cfg')
    {actor : JwtPayloadUser} {dto : CreatePinDto} {p : Program Response}
    (hth : cfg.threads e.pid = some (.running (.createPin actor dto) p)) :
    PinLocksKept (World.db cfg.state) (World.db cfg'.state) := by
  intro id user lockedUntil huser hlock
  have hA : ∀ call, (pinsInTurn P config).admits call → Call.isApi call = true := fun _ h => h
  cases UserStep.of_happened hA h id with
  | same hsame => exact ⟨user, hsame.trans huser, hlock⟩
  | created _ _ _ hnone => rw [hnone] at huser; cases huser
  | updated data user' hcmd _ huser' hrow =>
      cases huser.symm.trans huser'
      obtain ⟨call, k, hth', hdemand⟩ := demand_of_happened hA h
      cases hth.symm.trans hth'
      rw [hcmd] at hdemand
      cases hdemand with
      | password hdata =>
          exact ⟨_, hrow, by rw [User.patch, hdata.pinLockedUntil, Option.getD_none, hlock]⟩
      | count hcall _ _ => exact hcall.elim
      | pin salt pin _ =>
          have hunset := unset_at_write h hcmd huser
          rw [unlocked_of_unset hA hhash h.before huser hunset] at hlock
          cases hlock

theorem createdOnce (h : Reachable (pinsInTurn P config) World.initial cfg) : CreatedOnce cfg := by
  intro i j actor dto dto' r r' hi hj
  have F := followed_of_reachable (pin_justified fun _ h => h) h
  obtain ⟨pinHash, row, hmem⟩ : pinAnswer _ r _ := F.running (threads_of_ended hi)
  obtain ⟨pinHash', row', hmem'⟩ : pinAnswer _ r' _ := F.running (threads_of_ended hj)
  obtain ⟨e, he, rfl, hexchange⟩ := exists_event_of_log (mem_own.mp hmem)
  obtain ⟨e', he', rfl, hexchange'⟩ := exists_event_of_log (mem_own.mp hmem')
  by_contra hne
  have hcmd : e.cmd = setPin actor.userId pinHash := congrArg Exchange.cmd hexchange
  have hcmd' : e'.cmd = setPin actor.userId pinHash' := congrArg Exchange.cmd hexchange'
  rcases ordered_of_mem he he' fun h => hne (h ▸ rfl) with
    ⟨later, earlier, hsplit, hbefore⟩ | ⟨later, earlier, hsplit, hbefore⟩
  · exact not_written_twice hhash h hsplit hbefore hcmd hexchange'
  · exact not_written_twice hhash h hsplit hbefore hcmd' hexchange

/-- The PIN is written once as long as no request to create it overtakes another one. -/
theorem pinWrittenOnce_inTurn : PinWrittenOnce (pinsInTurn P config) := by
  intro cfg h
  refine ⟨createdOnce hhash h, fun a cfg' hp hn => ?_⟩
  cases a with
  | spawn j call =>
      obtain ⟨-, rfl⟩ := next_spawn_iff.mp hn
      exact ⟨fun _ user hu _ => ⟨user, hu, rfl⟩, fun _ _ user _ hu hl => ⟨user, hu, hl⟩⟩
  | crash j =>
      obtain ⟨call, p, -, rfl⟩ := next_crash_iff.mp hn
      exact ⟨fun _ user hu _ => ⟨user, hu, rfl⟩, fun _ _ user _ hu hl => ⟨user, hu, hl⟩⟩
  | step j ch =>
      obtain ⟨e, rfl, hhappened⟩ := Happened.of_step h hp hn
      refine ⟨pinsKept_of_happened hhappened, ?_⟩
      rintro ⟨i, ch', actor, dto, p, heq, hth⟩
      cases heq
      exact pinLocksKept_of_happened hhash hhappened hth

end InTurn

/-- A platform whose hashes are marked as such. -/
def bcryptPlatform : Platform :=
  { platform with
    bcryptHash := fun salt password => "$2b$" ++ salt ++ password
    bcryptCompare := fun password hash => hash = "$2b$" ++ password }

theorem pinWrittenOnce_inTurn_bcrypt : PinWrittenOnce (pinsInTurn bcryptPlatform mockConfig) :=
  pinWrittenOnce_inTurn fun salt pin h => by
    have hlength := congrArg String.length h
    simp [bcryptPlatform] at hlength

/-- The request has created a PIN for the user. -/
def createdPin (userId : String) : Option (Call × Except Err Response) → Bool
  | some (.createPin actor _, .ok _) => actor.userId = userId
  | _ => false

theorem exists_of_createdPin {userId : String} {o : Option (Call × Except Err Response)}
    (h : createdPin userId o = true) :
    ∃ dto r, o = some (.createPin ⟨userId⟩ dto, .ok r) := by
  unfold createdPin at h
  split at h
  · rename_i actor dto r
    obtain rfl : actor.userId = userId := of_decide_eq_true h
    exact ⟨dto, r, rfl⟩
  · cases h

/-- Ada asks twice for a PIN, and both requests read her row before either writes. -/
def twoPins : List (Action (walletApi bcryptPlatform mockConfig)) :=
  let dto : CreatePinDto := { pin := "1234", confirmPin := "1234", password := "password" }
  register 0 "ada" "u1" "w1" ++ [.spawn 2 (.createPin ⟨"u1"⟩ dto), .spawn 3 (.createPin ⟨"u1"⟩ dto)] ++
    calm 2 1 ++ calm 3 1 ++ calm 2 3 ++ calm 3 3

/-- Both requests succeed. -/
theorem pin_written_twice : ¬PinWrittenOnce (requests bcryptPlatform mockConfig) := by
  have hrun : (Machine.replayUnder (requests bcryptPlatform mockConfig) (.initial World.initial)
      twoPins).any fun cfg => createdPin "u1" (ended cfg 2) && createdPin "u1" (ended cfg 3) := by
    decide +kernel
  obtain ⟨cfg, hcfg, h⟩ := (Option.any_eq_true ..).mp hrun
  obtain ⟨h₂, h₃⟩ := (Bool.and_eq_true _ _).mp h
  obtain ⟨dto, r, hended⟩ := exists_of_createdPin h₂
  obtain ⟨dto', r', hended'⟩ := exists_of_createdPin h₃
  intro honce
  have hsame := (honce cfg (.replayUnder hcfg)).1 2 3 _ _ _ _ _ hended hended'
  exact absurd hsame (by decide)

end WalletApi
