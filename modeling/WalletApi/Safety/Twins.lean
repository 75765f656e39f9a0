import WalletApi.Safety.Replay
import WalletApi.Safety.Wallets

/-!
Requests with one key and one body.

The second lookup of a key is made before the wallet is locked. A request that
passes it and then waits for the lock is not told of the withdrawal that its twin
commits in the meantime: it fails with the balance that is left, or with the
unique index. A run shows this. In all runs in which no request is granted the
lock while the withdrawal of its key is there already, a request that ends after
its twin's commit is told of the twin's withdrawal, unless it has ended before its
key was looked up.
-/

namespace WalletApi

open Concurrency ReadCommitted World Policy Schedule

variable {P : Platform} {config : Config} {A : Call → ℕ → Cmd → Choice → World → Prop} {q : Call}
  {i j : ℕ} {s t u v : World} {w w' : Withdrawal} {actor : JwtPayloadUser}
  {header : Option String} {dto : CreateWithdrawalDto} {userId key : String}
  {cfg cfg' : Machine.Config (walletApi P config)}

/-! ### What a twin is told -/

/-- The command looks for the withdrawal of the key. -/
def Cmd.looksUp (userId key : String) : Cmd → Bool
  | .select _ (.withdrawalByUserAndIdempotencyKey u k) => u = userId ∧ k = key
  | _ => false

/-- Thread `i` has looked for the withdrawal of the key. -/
def World.lookedUp (s : World) (i : ℕ) (userId key : String) : Bool :=
  s.history.any fun e => e.pid = i && e.cmd.looksUp userId key

/-- The request of thread `i`, now at `p`, has ended with the withdrawal `w` and
`created = false`, or in an error before its key was looked up. -/
def Told (dto : CreateWithdrawalDto) (w : Withdrawal) (i : ℕ) (s : World) (p : Program Response) :
    Prop :=
  (∃ w', w'.core = w.core ∧ p = .ret (.withdrawal (dto.response ⟨w', false⟩))) ∨
    (∃ e, p = .fail e) ∧ s.lookedUp i w.userId w.idempotencyKey = false

/-- Another thread commits the withdrawal `w` from `cfg₀` to `cfg₁`; thread `i`
asks with the same key and body and ends later, from `cfg₂` to `cfg₃`, with `p`. -/
structure LateTwin (A : Machine.Assumptions (walletApi P config)) (i : ℕ)
    (dto : CreateWithdrawalDto) (w : Withdrawal) (p : Program Response)
    (cfg₀ cfg₁ cfg₂ cfg₃ : Machine.Config (walletApi P config)) : Prop where
  start : Machine.Reachable A World.initial cfg₀
  commits : ∃ j ch, j ≠ i ∧ A.Permits cfg₀ (.step j ch) ∧
    Machine.next cfg₀ (.step j ch) = some cfg₁
  run : Machine.Run A cfg₁ cfg₂
  ends : ∃ ch, A.Permits cfg₂ (.step i ch) ∧ Machine.next cfg₂ (.step i ch) = some cfg₃
  twin : ∃ actor header key, requireIdempotencyKey header = .ok key ∧
    cfg₃.threads i = some (.running (.postWithdrawals actor header dto) p) ∧
    cfg₀.state.db.withdrawalsOf actor.userId key = [] ∧
    w ∈ cfg₁.state.db.withdrawalsOf actor.userId key ∧ w.requestBodyHash = dto.hash P
  done : p.Done

/-! ### Refusals -/

/-- A refusal of a kind that is used before the key is looked up. -/
def Err.denial : Err → Bool
  | .app .badRequest _ | .app .unauthorized _ | .app .forbidden _ | .app .notFound _ => true
  | .app .unprocessableEntity message => message = "Wallet is not active"
  | _ => false

theorem Denies.denial {Γ : Policy} {e : Err} (h : Denies Γ e) (hf : ¬ Γ.Faulty) :
    e.denial = true := by
  cases h with
  | network hfaulty => exact absurd hfaulty hf
  | badRequest m => rfl
  | unauthorized m => rfl
  | forbidden m => rfl
  | notFound m => rfl
  | inactive => decide

/-- An error that a request may end in once it has looked its key up. -/
def Err.Late (e : Err) : Prop :=
  e.denial = true → e = customError.notFound "Wallet not found"

theorem late_of_infrastructure (e : Err) (he : e.isInfrastructure = true) : e.Late := by
  intro hdenial
  cases e with
  | app code message => cases he
  | error message => cases he
  | prisma code => cases hdenial
  | network => cases hdenial

theorem late_of_not_denial {e : Err} (h : e.denial = false) : e.Late := by
  intro hdenial
  cases h.symm.trans hdenial

namespace WithdrawalRepository

theorem throws_replay {hash : String} : MayThrow P config Err.Late (replay w hash) :=
  .bind (.throwIf (late_of_not_denial rfl)) fun _ => .ret

theorem throws_insufficient {b : Prop} [Decidable b] :
    MayThrow P config Err.Late
      (throwIf b (customError.unprocessableEntity "Insufficient wallet balance")) :=
  .throwIf (late_of_not_denial (by decide))

theorem throws_rethrowWalletMissing {α : Type} {body : Program α}
    (h : MayThrow P config Err.Late body) :
    MayThrow P config Err.Late (rethrowWalletMissing body) := by
  refine .tryCatch h fun e he => ?_
  show MayThrow P config _ (if _ then _ else _)
  split
  · exact .fail fun _ => rfl
  · exact .fail he

theorem throws_executeP2p {data : ExecuteP2pWithdrawalData} :
    MayThrow P config Err.Late (executeP2p data) := by
  have hE := late_of_infrastructure
  refine .bind (.perform hE rfl) fun (existing : Option Withdrawal) => ?_
  cases existing with
  | some w => exact throws_replay
  | none =>
      refine throws_rethrowWalletMissing (.transaction hE
        (.bind (.perform hE rfl) fun (again : Option Withdrawal) => ?_))
      cases again with
      | some w => exact .ret
      | none =>
          refine .bind (.lockWalletRows hE fun _ => late_of_not_denial rfl) fun _ => ?_
          refine .bind (.perform hE rfl) fun _ => .bind throws_insufficient fun _ => ?_
          refine .bind (.perform hE rfl) fun _ => .bind (.perform hE rfl) fun _ => ?_
          refine .bind (.insert hE) fun _ => .bind (.insert hE) fun _ => ?_
          exact .bind (.perform hE rfl) fun _ => .ret

theorem throws_executeBankAccept {data : ExecuteBankWithdrawalData} :
    MayThrow P config Err.Late (executeBankAccept data) := by
  have hE := late_of_infrastructure
  refine .bind (.perform hE rfl) fun (existing : Option Withdrawal) => ?_
  cases existing with
  | some w => exact throws_replay
  | none =>
      refine throws_rethrowWalletMissing (.transaction hE
        (.bind (.perform hE rfl) fun (again : Option Withdrawal) => ?_))
      cases again with
      | some w => exact .ret
      | none =>
          refine .bind (.lockWalletRow hE fun _ => late_of_not_denial rfl) fun _ => ?_
          refine .bind (.perform hE rfl) fun _ => .bind throws_insufficient fun _ => ?_
          refine .bind (.perform hE rfl) fun _ => .bind (.perform hE rfl) fun _ => ?_
          exact .bind (.insert hE) fun _ => .bind (.perform hE rfl) fun _ => .ret

end WithdrawalRepository

/-! ### Before the key is looked up -/

/-- The key has not been looked up in the exchanges. -/
def Unasked (userId key : String) (tr : Trace) : Prop :=
  ∀ x ∈ tr, x.cmd.looksUp userId key = false

/-- The program ends in an error that is not late only if the key has not been looked
up. -/
def EndsEarly {α : Type} (A : Machine.Assumptions (walletApi P config)) (q : Call) (i : ℕ)
    (userId key : String) (p : Program α) (tr : Trace) : Prop :=
  (Machine.solo A i fun _ _ => True).wp q i p (fun _ _ => True)
    (fun e tr => ¬ e.Late → Unasked userId key tr) tr

theorem looksUp_of_common (c : Cmd) (hc : c.common = true) : c.looksUp userId key = false := by
  unfold Cmd.looksUp
  split
  · cases hc
  · rfl

section Early

variable {B : Machine.Assumptions (walletApi P config)} {tr : Trace} {α β : Type}

theorem unasked_append {p p' : Program α} {new : Trace}
    (hp : p.Within fun c : Cmd => c.looksUp userId key = false) (h : p.Reaches new p')
    (htr : Unasked userId key tr) : Unasked userId key (new.reverse ++ tr) := by
  intro x hx
  rcases List.mem_append.mp hx with hnew | hold
  · exact hp.of_reaches h x (List.mem_reverse.mp hnew)
  · exact htr x hold

/-- A program that does not look the key up. -/
theorem EndsEarly.after {p : Program β} {f : β → Program α}
    (hp : p.Within fun c : Cmd => c.looksUp userId key = false) (htr : Unasked userId key tr)
    (hf : ∀ b tr, Unasked userId key tr → EndsEarly B q i userId key (f b) tr) :
    EndsEarly B q i userId key (p >>= f) tr := by
  refine RelyGuarantee.wp_bind (Machine.Solo.wp_within hp (fun _ _ _ => trivial) ?_ ?_)
  · exact fun b new hreturns => hf b _ (unasked_append hp hreturns htr)
  · exact fun e new hfails _ => unasked_append hp hfails htr

/-- A program that throws only late errors. -/
theorem EndsEarly.late {p : Program α} (h : MayThrow P config Err.Late p) :
    EndsEarly B q i userId key p tr :=
  RelyGuarantee.wp_mono (fun _ _ h => h) (fun _ _ hlate hnot => absurd hlate hnot) p
    (h.alone fun _ _ => trivial)

theorem WithdrawalP2pService.endsEarly_create (htr : Unasked userId key tr) :
    EndsEarly B q i userId key (WithdrawalP2pService.create P actor dto key) tr := by
  have hC : ∀ c : Cmd, c.common = true → c.looksUp userId key = false := looksUp_of_common
  refine .after within_requireNgn htr fun _ _ htr => .after within_throwIf htr fun _ _ htr => ?_
  refine .after (within_common hC rfl) htr fun _ _ htr => .after within_orThrow htr fun _ _ htr => ?_
  refine .after (within_common hC rfl) htr fun _ _ htr => .after within_orThrow htr fun _ _ htr => ?_
  refine .after within_throwIf htr fun _ _ htr => .after (within_common hC rfl) htr fun _ _ htr => ?_
  refine .after within_orThrow htr fun _ _ htr => .after within_throwIf htr fun _ _ _ => ?_
  exact .late (.bind WithdrawalRepository.throws_executeP2p fun _ => .ret)

theorem WithdrawalBankService.endsEarly_create (htr : Unasked userId key tr) :
    EndsEarly B q i userId key (WithdrawalBankService.create P actor dto key) tr := by
  have hC : ∀ c : Cmd, c.common = true → c.looksUp userId key = false := looksUp_of_common
  refine .after within_requireNgn htr fun _ _ htr => .after within_throwIf htr fun _ _ htr => ?_
  refine .after (within_common hC rfl) htr fun _ _ htr => .after within_orThrow htr fun _ _ htr => ?_
  refine .after within_throwIf htr fun _ _ htr => .after (within_common hC rfl) htr fun _ _ _ => ?_
  refine .late (.bind WithdrawalRepository.throws_executeBankAccept fun result => ?_)
  show MayThrow P config _ (if _ then _ else _)
  split
  · exact .bind (.perform late_of_infrastructure rfl) fun _ => .ret
  · exact .ret

theorem endsEarly_postWithdrawals (hkey : requireIdempotencyKey header = .ok key) :
    EndsEarly B q i actor.userId key (program P config (.postWithdrawals actor header dto)) [] := by
  show EndsEarly B q i actor.userId key
    ((ofExcept (requireIdempotencyKey header)).bind _ : Program Response) []
  rw [hkey]
  have hC : ∀ c : Cmd, c.common = true → c.looksUp actor.userId key = false := looksUp_of_common
  have hend {α : Type} {p : Program α} {f : α → Response} {tr : Trace}
      (h : EndsEarly B q i actor.userId key p tr) :
      EndsEarly B q i actor.userId key (f <$> p) tr :=
    RelyGuarantee.wp_bind (f := fun a => .ret (f a))
      (RelyGuarantee.wp_mono (fun _ _ _ => trivial) (fun _ _ h => h) p h)
  refine hend (.after (AuthCredentialService.within_verifyPinOrThrow hC (fun _ => rfl)
    fun _ _ _ => rfl) (fun x hx => absurd hx List.not_mem_nil) fun _ _ htr => ?_)
  cases dto.destinationType with
  | wallet => exact WithdrawalP2pService.endsEarly_create htr
  | bank => exact WithdrawalBankService.endsEarly_create htr

/-- A request that has ended in an error which is not late has not looked its key up. -/
theorem lookedUp_of_failed {cfg : Machine.Config (walletApi P config)}
    (h : Machine.Reachable B World.initial cfg) {e : Err}
    (hth : cfg.threads i = some (.running (.postWithdrawals actor header dto) (.fail e)))
    (hkey : requireIdempotencyKey header = .ok key) (he : ¬ e.Late) :
    World.lookedUp cfg.state i actor.userId key = false := by
  let E : Call → Err → Trace → Prop := fun call e tr => ∀ actor header dto key,
    call = .postWithdrawals actor header dto → requireIdempotencyKey header = .ok key →
      ¬ e.Late → Unasked actor.userId key tr
  have hcall {call : Call} {j : ℕ} : (Machine.solo B j fun _ _ => True).wp call j
      (program P config call) (fun _ _ => True) (E call) [] := by
    by_cases hpost : ∃ actor header dto key, call = .postWithdrawals actor header dto ∧
        requireIdempotencyKey header = .ok key
    · obtain ⟨actor, header, dto, key, rfl, hkey⟩ := hpost
      refine RelyGuarantee.wp_mono (fun _ _ h => h) (fun e tr h => ?_) _
        (endsEarly_postWithdrawals hkey)
      rintro actor' header' dto' key' heq hkey'
      cases heq
      cases hkey.symm.trans hkey'
      exact h
    · refine Machine.Solo.wp_within (.all fun _ => trivial) (fun _ _ _ => trivial)
        (fun _ _ _ => trivial) fun e _ _ actor header dto key heq hkey _ => ?_
      exact absurd ⟨actor, header, dto, key, heq, hkey⟩ hpost
  have F : Machine.Followed (recording P config) B (fun _ _ _ => True) (fun _ _ _ => True) E cfg :=
    .of_reachable rfl (fun _ => hcall) h
  have hunasked : Unasked actor.userId key (own i (World.log cfg.state)) :=
    F.running hth actor header dto key rfl hkey he
  refine List.any_eq_false.mpr fun ev hev hlooked => ?_
  obtain ⟨hpid, hlooks⟩ := Bool.and_eq_true_iff.mp hlooked
  have hown : ev.exchange ∈ own i (World.log cfg.state) := by
    refine mem_own.mpr (List.mem_map.mpr ⟨ev, hev, ?_⟩)
    rw [of_decide_eq_true hpid]
  cases hlooks.symm.trans (hunasked _ hown)

end Early

/-! ### The runs without the race -/

/-- The statement is not the lock of the user's own wallet, or the withdrawal of
the key is not there. -/
def locksInTime (P : Platform) (call : Call) (c : Cmd) (s : World) : Bool :=
  match call, c with
  | .postWithdrawals actor header dto, .lockWalletRow walletId =>
      match requireIdempotencyKey header with
      | .ok key =>
          !(s.db.wallets.any fun x => x.id = walletId ∧ x.userId = actor.userId) ||
            (s.db.withdrawalsOf actor.userId key).all (·.requestBodyHash ≠ dto.hash P)
      | .error _ => true
  | _, _ => true

/-- No connection fails. -/
def Faultless (_ : Call) (_ : ℕ) (_ : Cmd) (ch : Choice) (_ : World) : Prop := ch.fault = .none

/-- Nothing fails, and no request is granted the lock of its user's wallet while
the withdrawal it asks for is there already. -/
def InTime (P : Platform) (call : Call) (i : ℕ) (c : Cmd) (ch : Choice) (s : World) : Prop :=
  Faultless call i c ch s ∧ locksInTime P call c s = true

instance : ∀ call i c ch s, Decidable (Faultless call i c ch s) :=
  fun _ _ _ ch _ => inferInstanceAs (Decidable (ch.fault = .none))

instance : ∀ call i c ch s, Decidable (InTime P call i c ch s) :=
  fun call _ c ch s => inferInstanceAs (Decidable (ch.fault = .none ∧ locksInTime P call c s = true))

/-- The withdrawal that the request asks for is not there. -/
def NotYet (P : Platform) (actor : JwtPayloadUser) (key : String) (dto : CreateWithdrawalDto)
    (s : World) : Prop :=
  ∀ w ∈ s.db.withdrawalsOf actor.userId key, w.requestBodyHash ≠ dto.hash P

theorem not_faulty (hA : ∀ call i c ch s, A call i c ch s → ch.fault = .none) :
    ¬ (bookkeeping A).Faulty := by
  rintro ⟨q, i, c, ch, s, hallows, hfault⟩
  exact hfault (hA q i c ch s hallows)

/-- Another thread would need the lock to add a withdrawal of the user. -/
theorem notYet_of_guar {x : Wallet} (hx : x ∈ s.db.wallets) (hxuser : x.userId = actor.userId)
    (hji : j ≠ i) (hlock : s.store.locks x.id = some i)
    (ht : ((bookkeeping A).discipline P config).Inv t)
    (hg : ((bookkeeping A).discipline P config).Guar j s t) (h : NotYet P actor key dto s) :
    NotYet P actor key dto t := by
  intro w hw
  obtain ⟨hmem, huser, hkey⟩ := mem_withdrawalsOf.mp hw
  have hmoved : Moved A j s t := hg.2.2
  rcases hmoved.locked w hmem with ⟨w₀, hw₀, hfixed⟩ | hheld
  · have huser₀ : w.fixed.userId = w₀.fixed.userId := by rw [hfixed]
    have hkey₀ : w.fixed.idempotencyKey = w₀.fixed.idempotencyKey := by rw [hfixed]
    have hhash₀ : w.fixed.requestBodyHash = w₀.fixed.requestBodyHash := by rw [hfixed]
    have hne := h w₀ (mem_withdrawalsOf.mpr ⟨hw₀, huser₀.symm.trans huser, hkey₀.symm.trans hkey⟩)
    exact fun heq => hne (hhash₀.symm.trans heq)
  · obtain ⟨hu, hb, -⟩ := ht.2.2
    obtain ⟨x', hx', hid, hx'user⟩ := (hb.withdrawal w hmem).wallet
    have heq : x = x' := hu.wallet_of_userId (hg.1.grows.wallets x hx) hx'
      (hxuser.trans (huser.symm.trans hx'user.symm))
    rw [← hid, ← heq, hlock] at hheld
    exact absurd (Option.some.inj hheld).symm hji

theorem guarded_notYet (hA : ∀ call i c ch s, A call i c ch s → InTime P call i c ch s) :
    Guarded P config A (NotYet P) where
  prot {i x actor key dto} hxuser :=
    { others := fun hji hlocks _ ht hg hF =>
        ⟨hg.1.grows.wallets x hF.1, notYet_of_guar hF.1 hxuser hji (hlocks _ (.head _)) ht hg hF.2⟩
      quiet := fun hq hF => by
        unfold NotYet at hF ⊢
        rw [hq.db]
        exact hF }
  granted {i x v actor header key dto} hkey hxuser hx hgranted := by
    obtain ⟨ch, -, hallows⟩ := hgranted
    obtain ⟨-, htime⟩ := hA _ _ _ _ _ hallows
    have hany : (v.db.wallets.any fun y => y.id = x.id ∧ y.userId = actor.userId) = true :=
      List.any_eq_true.mpr ⟨x, hx, decide_eq_true ⟨rfl, hxuser⟩⟩
    simp only [locksInTime, hkey, hany, Bool.not_true, Bool.false_or] at htime
    exact fun w hw => of_decide_eq_true (List.all_eq_true.mp htime w hw)

/-! ### Who made the withdrawal -/

/-- The step is not the commit with which thread `i` makes a withdrawal of the key. -/
def NotBy (i : ℕ) (userId key : String) (j : ℕ) (c : Cmd) (s : World) : Prop :=
  j = i → c = .commit → ∀ ws, s.store.opened i = some ws → ∀ row, .createWithdrawal row ∈ ws →
    ¬(row.userId = userId ∧ row.idempotencyKey = key)

/-- The runs under `A` in which thread `i` does not make a withdrawal of the key. -/
def Without (A : Call → ℕ → Cmd → Choice → World → Prop) (i : ℕ) (userId key : String) :
    Call → ℕ → Cmd → Choice → World → Prop :=
  fun call j c ch s => A call j c ch s ∧ NotBy i userId key j c s

theorem withdrawalsOf_eq_nil {d d' : Db} (h : d.Grows d') (hnil : d'.withdrawalsOf userId key = []) :
    d.withdrawalsOf userId key = [] := by
  refine List.eq_nil_iff_forall_not_mem.mpr fun w hw => ?_
  obtain ⟨w', hw', -⟩ := h.withdrawalsOf hw
  rw [hnil] at hw'
  exact List.not_mem_nil hw'

/-- A withdrawal that is in a buffer is in the table after the commit. -/
theorem exists_of_applyAll {ws : List Write} {row : Withdrawal} (h : .createWithdrawal row ∈ ws) :
    ∀ d : Db, ∃ w ∈ (schema.applyAll ws d : Db).withdrawals, w.core = row.core := by
  induction ws with
  | nil => exact absurd h List.not_mem_nil
  | cons w ws ih =>
      intro d
      rcases List.mem_cons.mp h with rfl | hrest
      · have hrow : row ∈ ((Write.createWithdrawal row).apply d).withdrawals :=
          List.mem_append_right _ (.head _)
        exact (Db.Grows.applyAll ws _).withdrawals row hrow
      · exact ih hrest (w.apply d)

/-- As long as there is no withdrawal of the key, thread `i` has not made one. -/
theorem reachable_before (hA : ∀ call i c ch s, A call i c ch s → ch.fault = .none)
    (h : Machine.Reachable (api P config A) World.initial cfg)
    (hnil : cfg.state.db.withdrawalsOf userId key = []) :
    Machine.Reachable (api P config (Without A i userId key)) World.initial cfg := by
  induction h with
  | initial => exact .initial
  | @next cfg cfg' a hr hp hn ih =>
      refine .next a (ih (withdrawalsOf_eq_nil (grows_of_next hn) hnil)) ?_ hn
      cases a with
      | spawn j call => exact hp
      | crash j => trivial
      | step j ch =>
          intro call c k hth
          have hallows : A call j c ch cfg.state := hp call c k hth
          refine ⟨hallows, ?_⟩
          rintro rfl rfl ws hopened row hrow ⟨huser, hkey⟩
          obtain ⟨call', c', k', r, t, hth', he, rfl⟩ := Machine.next_step_iff.mp hn
          cases hth.symm.trans hth'
          obtain ⟨w, hw, hcore⟩ := exists_of_applyAll hrow cfg.state.db
          obtain ⟨huser', hkey'⟩ := Withdrawal.key_of_core hcore
          have hdb : t.db = schema.applyAll ws cfg.state.db := by
            rcases exec_eq_some he with ⟨-, hf, -⟩ | ⟨r', s', hperform, -, rfl⟩
            · cases (hA _ _ _ _ _ hallows).symm.trans hf
            · obtain ⟨store, hstore, heq⟩ := Option.map_eq_some_iff.mp hperform
              cases heq
              obtain ⟨ws', hopened', rfl⟩ := Store.commit_eq_some hstore
              cases hopened.symm.trans hopened'
              rfl
          have hmem : w ∈ t.db.withdrawalsOf userId key := by
            rw [hdb]
            exact mem_withdrawalsOf.mpr ⟨hw, huser'.trans huser, hkey'.trans hkey⟩
          exact absurd hmem (List.eq_nil_iff_forall_not_mem.mp hnil w)

/-- Once there is a withdrawal of the key, no thread makes another one. -/
theorem permits_after {G : JwtPayloadUser → String → CreateWithdrawalDto → World → Prop}
    (hG : Guarded P config (Without A i userId key) G)
    (h : Machine.Reachable (api P config (Without A i userId key)) World.initial cfg)
    (hw : w ∈ cfg.state.db.withdrawalsOf userId key) {a : Machine.Action (walletApi P config)}
    (hp : (api P config A).Permits cfg a) :
    (api P config (Without A i userId key)).Permits cfg a := by
  cases a with
  | spawn j call => exact hp
  | crash j => trivial
  | step j ch =>
      intro call c k hth
      refine ⟨hp call c k hth, ?_⟩
      rintro rfl rfl ws hopened row hrow ⟨huser, hkey⟩
      obtain ⟨hcoherent, -⟩ := (api_certified P config _ hG).inv h
      obtain ⟨hmem, hwuser, hwkey⟩ := mem_withdrawalsOf.mp hw
      -- The buffer and the table would have an index entry in common.
      have hrowKey : Key.withdrawalIdempotencyKey userId key ∈
          Write.keys (.createWithdrawal row) := by
        rw [← huser, ← hkey]
        exact .tail _ (.head _)
      have htableKey : Key.withdrawalIdempotencyKey userId key ∈ cfg.state.db.keys := by
        have hmemKey : Key.withdrawalIdempotencyKey userId key ∈ w.keys := by
          rw [← hwuser, ← hwkey]
          exact .tail _ (.head _)
        simp only [Db.keys, List.mem_append, List.mem_flatMap]
        exact .inl (.inr ⟨w, hmem, hmemKey⟩)
      exact hcoherent.notMem_index hopened hrow hrowKey htableKey

theorem reachable_after {G : JwtPayloadUser → String → CreateWithdrawalDto → World → Prop}
    (hG : Guarded P config (Without A i userId key) G)
    (h : Machine.Reachable (api P config (Without A i userId key)) World.initial cfg)
    (hw : w ∈ cfg.state.db.withdrawalsOf userId key) (hrun : Machine.Run (api P config A) cfg cfg') :
    Machine.Reachable (api P config (Without A i userId key)) World.initial cfg' ∧
      ∃ w' ∈ cfg'.state.db.withdrawalsOf userId key, w'.core = w.core := by
  induction hrun with
  | refl => exact ⟨h, w, hw, rfl⟩
  | @tail mid cfg' hmid hlast ih =>
      obtain ⟨hr, w', hw', hcore⟩ := ih
      obtain ⟨a, hp, hn⟩ := hlast
      refine ⟨.next a hr ?_ hn, ?_⟩
      · exact permits_after hG hr hw' hp
      · obtain ⟨w'', hw'', hcore'⟩ := (grows_of_next hn).withdrawalsOf hw'
        exact ⟨w'', hw'', hcore'.trans hcore⟩

/-! ### The result -/

/-- What a twin has returned is the withdrawal that is there. -/
theorem told_of_answers {response : WithdrawalResponse} (hu : u.db.Unique)
    (h : Answers P config (Without A i actor.userId key) (.postWithdrawals actor header dto) i
      actor key dto response u) (hw : w ∈ u.db.withdrawalsOf actor.userId key) :
    Told dto w i u (.ret (.withdrawal response)) := by
  cases h with
  | replayed s w₀ hr hreplays =>
      obtain ⟨t, v, -, htv, hvu, -, -, ⟨hw₀, huser, hwkey⟩, -⟩ := hreplays
      have hcore := core_of_runs (htv.trans hvu) hu (mem_withdrawalsOf.mpr ⟨hw₀, huser, hwkey⟩) hw
      exact .inl ⟨w₀, hcore.symm, by rw [hr]⟩
  | created t v ws w₀ _ hc _ hrow _ _ _ _ =>
      obtain ⟨row, hmem, hboth⟩ := hrow
      obtain ⟨ch, -, -, hnot⟩ := hc.taken
      exact absurd hboth (hnot rfl rfl ws hc.opened row hmem)

/-- A twin that has failed was turned down at the door. -/
theorem denies_of_fails {e : Err} (hu : u.db.Unique)
    (h : Fails P config A (NotYet P actor key dto) actor key dto e u)
    (hw : w ∈ u.db.withdrawalsOf actor.userId key) (hhash : w.requestBodyHash = dto.hash P) :
    Denies (bookkeeping A) e := by
  cases h with
  | denied hdenies => exact hdenies
  | conflict t w₀ htu hw₀ hboth hne =>
      have hcore := core_of_runs htu hu (mem_withdrawalsOf.mpr ⟨hw₀, hboth⟩) hw
      exact absurd ((Withdrawal.hash_of_core hcore).symm.trans hhash) hne
  | locked hnot => exact absurd hhash (hnot w hw)

/-- It was so before its key was looked up. -/
theorem not_late_of_denies {A : Call → ℕ → Cmd → Choice → World → Prop}
    (hA : ∀ call i c ch s, A call i c ch s → ch.fault = .none)
    (hr : Machine.Reachable (api P config A) World.initial cfg) {e : Err}
    (hth : cfg.threads i = some (.running (.postWithdrawals actor header dto) (.fail e)))
    (h : Denies (bookkeeping A) e) : ¬ e.Late := by
  intro hlate
  obtain ⟨-, -, -, hpossible⟩ := (owners_certified P config A).failed hr hth
  exact hpossible (.inl (hlate (h.denial (not_faulty hA))))

/-- As long as nothing fails and no request is granted the lock of its user's
wallet while the withdrawal it asks for is there already, a request that ends
after the commit of its twin is told of the twin's withdrawal. -/
theorem lateTwin_told {p : Program Response}
    {cfg₀ cfg₁ cfg₂ cfg₃ : Machine.Config (walletApi P config)}
    (h : LateTwin (api P config (InTime P)) i dto w p cfg₀ cfg₁ cfg₂ cfg₃) :
    Told dto w i cfg₃.state p := by
  obtain ⟨hr₀, ⟨j, chj, hji, hpj, hnj⟩, hrun, ⟨ch, hp, hn⟩,
    ⟨actor, header, key, hkey, hth, hnil, hw, hhash⟩, hdone⟩ := h
  have hfaultless : ∀ call i c ch s, InTime P call i c ch s → ch.fault = .none :=
    fun _ _ _ _ _ h => h.1
  have hG : Guarded P config (Without (InTime P) i actor.userId key) (NotYet P) :=
    guarded_notYet fun _ _ _ _ _ h => h.1
  -- Thread `i` has no part in the withdrawal, neither before its commit nor after.
  have hr₁ : Machine.Reachable (api P config (Without (InTime P) i actor.userId key))
      World.initial cfg₁ := by
    refine .next (.step j chj) (reachable_before hfaultless hr₀ hnil) ?_ hnj
    exact fun call c k hthj => ⟨hpj call c k hthj, fun heq => absurd heq hji⟩
  obtain ⟨hr₂, w₂, hw₂, hcore₂⟩ := reachable_after hG hr₁ hw hrun
  obtain ⟨w₃, hw₃, hcore₃⟩ := (grows_of_next hn).withdrawalsOf hw₂
  have hcore : w₃.core = w.core := hcore₃.trans hcore₂
  have hhash₃ : w₃.requestBodyHash = dto.hash P := (Withdrawal.hash_of_core hcore).trans hhash
  obtain ⟨⟨-, hu, -⟩, hend⟩ := (api_certified P config _ hG).after_step hr₂
    (permits_after hG hr₂ hw₂ hp) hn hth
  cases p with
  | ret r =>
      obtain ⟨key', response, hkey', rfl, hanswers⟩ := hend
      cases hkey.symm.trans hkey'
      rcases told_of_answers hu hanswers hw₃ with ⟨w', hw', heq⟩ | ⟨⟨e, heq⟩, -⟩
      · exact .inl ⟨w', hw'.trans hcore, heq⟩
      · cases heq
  | fail e =>
      have hr₃ : Machine.Reachable (api P config (Without (InTime P) i actor.userId key))
          World.initial cfg₃ := .next _ hr₂ (permits_after hG hr₂ hw₂ hp) hn
      have hdenies := denies_of_fails hu (hend key hkey) hw₃ hhash₃
      have hearly := not_late_of_denies (fun _ _ _ _ _ h => h.1.1) hr₃ hth hdenies
      obtain ⟨-, huser, hwkey⟩ := mem_withdrawalsOf.mp hw
      refine .inr ⟨⟨e, rfl⟩, ?_⟩
      rw [huser, hwkey]
      exact lookedUp_of_failed hr₃ hth hkey hearly
  | op c k => exact hdone.elim

/-! ### Two runs -/

/-- The end of a request that is late, from a run in four parts; `good` is told
whether the key has been looked up. -/
def lateEnd (i : ℕ) (cfg₀ cfg₁ cfg₃ : Machine.Config (walletApi platform mockConfig))
    (good : Bool → Except Err Response → Bool) : Bool :=
  match ended cfg₃ i with
  | some (.postWithdrawals actor header dto, r) =>
      match requireIdempotencyKey header with
      | .ok key => (cfg₀.state.db.withdrawalsOf actor.userId key).isEmpty &&
          good (World.lookedUp cfg₃.state i actor.userId key) r &&
          (cfg₁.state.db.withdrawalsOf actor.userId key).any
            (·.requestBodyHash = dto.hash platform)
      | .error _ => false
  | _ => false

theorem exists_lateTwin {A : Machine.Assumptions (walletApi platform mockConfig)}
    [DecidablePred A.admits] [∀ call i c ch s, Decidable (A.allows call i c ch s)]
    {before after : List (Machine.Action (walletApi platform mockConfig))} {chj chi : Choice}
    {good : Bool → Except Err Response → Bool} (hji : j ≠ i)
    (h : (Machine.replayUnder A (.initial World.initial) before).any fun cfg₀ =>
      (Machine.replayUnder A cfg₀ [.step j chj]).any fun cfg₁ =>
        (Machine.replayUnder A cfg₁ after).any fun cfg₂ =>
          (Machine.replayUnder A cfg₂ [.step i chi]).any fun cfg₃ =>
            lateEnd i cfg₀ cfg₁ cfg₃ good) :
    ∃ dto w r cfg₀ cfg₁ cfg₂ cfg₃, LateTwin A i dto w (ofExcept r) cfg₀ cfg₁ cfg₂ cfg₃ ∧
      good (World.lookedUp cfg₃.state i w.userId w.idempotencyKey) r = true := by
  obtain ⟨cfg₀, h₀, h⟩ := (Option.any_eq_true ..).mp h
  obtain ⟨cfg₁, h₁, h⟩ := (Option.any_eq_true ..).mp h
  obtain ⟨cfg₂, h₂, h⟩ := (Option.any_eq_true ..).mp h
  obtain ⟨cfg₃, h₃, h⟩ := (Option.any_eq_true ..).mp h
  unfold lateEnd at h
  split at h
  · rename_i actor header dto r hended
    split at h
    · rename_i key hkey
      simp only [Bool.and_eq_true] at h
      obtain ⟨⟨hnil, hgood⟩, hany⟩ := h
      obtain ⟨w, hw, hhash⟩ := List.any_eq_true.mp hany
      have hdone : (ofExcept r : Program Response).Done := by cases r <;> trivial
      have hstep := Machine.replayUnder_single h₁
      have hlast := Machine.replayUnder_single h₃
      obtain ⟨-, huser, hwkey⟩ := mem_withdrawalsOf.mp hw
      refine ⟨dto, w, r, cfg₀, cfg₁, cfg₂, cfg₃, ?_, by rw [huser, hwkey]; exact hgood⟩
      exact
        { start := .replayUnder h₀
          commits := ⟨j, chj, hji, hstep⟩
          run := .replayUnder h₂
          ends := ⟨chi, hlast⟩
          twin := ⟨actor, header, key, hkey, threads_of_ended hended,
            List.isEmpty_iff.mp hnil, hw, of_decide_eq_true hhash⟩
          done := hdone }
    · cases h
  · cases h

/-- Ada asks twice for 400 to Bob; the first request ends while the second has not
looked its key up. -/
theorem lateTwin_told_schedule :
    ∃ dto w r cfg₀ cfg₁ cfg₂ cfg₃,
      LateTwin (api platform mockConfig (InTime platform)) 6 dto w (ofExcept r) cfg₀ cfg₁ cfg₂ cfg₃ ∧
      Told dto w 6 cfg₃.state (ofExcept r) := by
  have hrun : (Machine.replayUnder (api platform mockConfig (InTime platform))
      (.initial World.initial) (fundedAda ++
        .spawn 6 (.postWithdrawals ⟨"u1"⟩ (some idempotencyKey) toBob) :: calm 6 5 ++
          (sendToBob 7 idempotencyKey "x1" "r2" "r3").dropLast)).any fun cfg₀ =>
      (Machine.replayUnder (api platform mockConfig (InTime platform)) cfg₀
        [.step 7 {}]).any fun cfg₁ =>
        (Machine.replayUnder (api platform mockConfig (InTime platform)) cfg₁ []).any fun cfg₂ =>
          (Machine.replayUnder (api platform mockConfig (InTime platform)) cfg₂
            [.step 6 {}]).any fun cfg₃ => lateEnd 6 cfg₀ cfg₁ cfg₃ fun _ => Except.isOk := by
    decide +kernel
  obtain ⟨dto, w, r, cfg₀, cfg₁, cfg₂, cfg₃, htwin, -⟩ := exists_lateTwin (by decide) hrun
  exact ⟨dto, w, r, cfg₀, cfg₁, cfg₂, cfg₃, htwin, lateTwin_told htwin⟩

/-- Ada has 600 and asks twice for 400 to Bob; both requests look the key up in
their transactions before the first one commits. -/
theorem lateTwin_refused :
    ∃ dto w cfg₀ cfg₁ cfg₂ cfg₃,
      LateTwin (api platform mockConfig Faultless) 6 dto w
        (.fail (customError.unprocessableEntity "Insufficient wallet balance"))
        cfg₀ cfg₁ cfg₂ cfg₃ ∧
      ¬ Told dto w 6 cfg₃.state
        (.fail (customError.unprocessableEntity "Insufficient wallet balance")) := by
  have hrun : (Machine.replayUnder (api platform mockConfig Faultless)
      (.initial World.initial) (fundedAda ++ sendToBob 8 secondKey "x0" "r4" "r5" ++
        .spawn 6 (.postWithdrawals ⟨"u1"⟩ (some idempotencyKey) toBob) :: calm 6 8 ++
          (sendToBob 7 idempotencyKey "x1" "r2" "r3").dropLast)).any fun cfg₀ =>
      (Machine.replayUnder (api platform mockConfig Faultless) cfg₀ [.step 7 {}]).any fun cfg₁ =>
        (Machine.replayUnder (api platform mockConfig Faultless) cfg₁ (calm 6 3)).any fun cfg₂ =>
          (Machine.replayUnder (api platform mockConfig Faultless) cfg₂
            [.step 6 {}]).any fun cfg₃ => lateEnd 6 cfg₀ cfg₁ cfg₃ fun looked r => looked &&
              r = .error (customError.unprocessableEntity "Insufficient wallet balance") := by
    decide +kernel
  obtain ⟨dto, w, r, cfg₀, cfg₁, cfg₂, cfg₃, htwin, hgood⟩ := exists_lateTwin (by decide) hrun
  obtain ⟨hlooked, hr⟩ := Bool.and_eq_true_iff.mp hgood
  rw [of_decide_eq_true hr] at htwin
  refine ⟨dto, w, cfg₀, cfg₁, cfg₂, cfg₃, htwin, ?_⟩
  rintro (⟨w', -, heq⟩ | ⟨-, hnot⟩)
  · cases heq
  · cases hlooked.symm.trans hnot

end WalletApi
