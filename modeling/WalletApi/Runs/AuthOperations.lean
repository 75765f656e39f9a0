import WalletApi.Runs.Discipline

/-!
What the authentication services do, under any policy.

They touch the users only: a registration adds a user with a wallet, everything
else updates a user. A check of a PIN that fails is a refusal of the request
(`Denies`), and never an error of the database, since the user it is about
stays.
-/

namespace WalletApi

open Concurrency ReadCommitted World Policy

variable {P : Platform} {config : Config} {Γ : Policy} {q : Call} {i : ℕ} {s t u : World}

/-- What a policy has to grant for the users to change. -/
structure GrantsUsers (P : Platform) (config : Config) (Γ : Policy) (q : Call) (i : ℕ) : Prop where
  register : ∀ {t u user wallet},
    Wrote P config Γ q i (.createUserWithWallet user wallet) t u → wallet.userId = user.id →
      Γ.Inv u ∧ Γ.Guar i t u
  update : ∀ {t u id data},
    Wrote P config Γ q i (.updateUser id data) t u → Γ.Inv u ∧ Γ.Guar i t u

/-- The ways to turn a request down before anything is looked up under its key. -/
inductive Denies (Γ : Policy) : Err → Prop
  | network (h : Γ.Faulty) : Denies Γ .network
  | badRequest (message : String) : Denies Γ (customError.badRequest message)
  | unauthorized (message : String) : Denies Γ (customError.unauthorized message)
  | forbidden (message : String) : Denies Γ (customError.forbidden message)
  | notFound (message : String) : Denies Γ (customError.notFound message)
  | inactive : Denies Γ (customError.unprocessableEntity "Wallet is not active")

theorem find?_user {d : Db} {id : String} {user : User}
    (h : (Query.userById id).run d = some user) : user ∈ d.users ∧ user.id = id := by
  have hp := List.find?_some h
  exact ⟨List.mem_of_find?_eq_some h, of_decide_eq_true hp⟩

/-- A user that was there is still found by its id. -/
theorem exists_find?_user (h : (Γ.discipline P config).Runs s t) {user : User}
    (hu : user ∈ s.db.users) : ∃ user', t.db.users.find? (·.id = user.id) = some user' := by
  obtain ⟨user', hmem, hcore⟩ := (grows_of_runs h).users user hu
  have hid : user'.core.id = user.core.id := congrArg User.id hcore
  refine Option.isSome_iff_exists.mp (List.find?_isSome.mpr ⟨user', hmem, ?_⟩)
  exact decide_eq_true hid

/-- Updating a user that was there, with a text that may be turned down. -/
theorem wp_updateUser (hgrants : GrantsUsers P config Γ q i) {user : User} {data : UserUpdate}
    {E : Err → World → Prop} {Q : User → World → Prop} (hnet : ∀ u, Γ.Faulty → E .network u)
    (htext : ∀ u, data.pinHash ≠ none → E (.prisma .invalidText) u)
    (hs : (Γ.discipline P config).Runs s t) (hu : user ∈ s.db.users)
    (hQ : ∀ user' u, (Γ.discipline P config).Runs s u → Q user' u) :
    (Γ.discipline P config).wp q i (write .pool (.updateUser user.id data)) Q E t := by
  refine wp_write hnet (fun _ => rfl) (fun _ _ _ hw => hgrants.update hw)
    (fun _ v user' _ hv _ _ => hQ user' v (hs.trans hv)) fun v _ code hv hrej => ?_
  obtain ⟨user', hfind⟩ := exists_find?_user (hs.trans hv) hu
  cases code with
  | valueOutOfRange => cases hrej
  | invalidText =>
      refine htext _ fun hnone => ?_
      have hrefused : data.pinHash.toList.all isColumnText = false := hrej
      rw [hnone] at hrefused
      cases hrefused
  | recordNotFound =>
      have hnone : (v.db.users.find? (·.id = user.id)).map (·.patch data) = none := hrej
      rw [hfind] at hnone
      cases hnone
  | uniqueConstraint =>
      obtain ⟨k, hk, -⟩ := Store.write_eq_conflict hrej
      cases hk

/-! ### Secrets -/

namespace AuthCredentialService

variable {secret hash invalidMessage : String} {reset : Program User}
  {record : ℕ → Option ℕ → Program User} {E : Err → World → Prop} {Q : Unit → World → Prop}

theorem wp_assertNotLocked {lockedUntil : Option ℕ} (hE : ∀ m u, E (customError.unauthorized m) u)
    (hQ : ∀ u, (Γ.discipline P config).Runs s u → Q () u) :
    (Γ.discipline P config).wp q i (assertNotLocked lockedUntil) Q E s := by
  cases lockedUntil with
  | none => exact RelyGuarantee.wp_ret (hQ s .refl)
  | some lockedUntil =>
      refine RelyGuarantee.wp_bind (wp_local rfl rfl fun t u (now : ℕ) ho => ?_)
      show (Γ.discipline P config).wp q i (if _ then _ else _) Q E u
      split
      · exact RelyGuarantee.wp_bind (wp_local rfl rfl fun _ v _ _ =>
          RelyGuarantee.wp_fail (hE _ v))
      · exact RelyGuarantee.wp_ret (hQ u (ho.runs_quiet rfl))

theorem wp_lockUntilIfMaxed {attempts : ℕ} {Q : Option ℕ → World → Prop}
    (hQ : ∀ l u, (Γ.discipline P config).Runs s u → Q l u) :
    (Γ.discipline P config).wp q i (lockUntilIfMaxed attempts) Q E s := by
  rw [lockUntilIfMaxed]
  split
  · exact RelyGuarantee.wp_bind (wp_local rfl rfl fun _ u _ ho =>
      RelyGuarantee.wp_ret (hQ _ u (ho.runs_quiet rfl)))
  · exact RelyGuarantee.wp_ret (hQ none s .refl)

theorem wp_lockExpired {lockedUntil : Option ℕ} {Q : Bool → World → Prop}
    (hQ : ∀ b u, (Γ.discipline P config).Runs s u → Q b u) :
    (Γ.discipline P config).wp q i (lockExpired lockedUntil) Q E s := by
  cases lockedUntil with
  | none => exact RelyGuarantee.wp_ret (hQ false s .refl)
  | some lockedUntil =>
      exact RelyGuarantee.wp_bind (wp_local rfl rfl fun _ u _ ho =>
        RelyGuarantee.wp_ret (hQ _ u (ho.runs_quiet rfl)))

/-- A check of a secret, whose two updates keep the policy, ends well or denies. -/
theorem wp_checkSecret {tryCount : ℕ} {lockedUntil : Option ℕ}
    (hE : ∀ m u, E (customError.unauthorized m) u)
    (hreset : ∀ t, (Γ.discipline P config).Runs s t → (Γ.discipline P config).wp q i reset
      (fun _ u => (Γ.discipline P config).Runs s u) E t)
    (hrecord : ∀ n l t, (Γ.discipline P config).Runs s t →
      (Γ.discipline P config).wp q i (record n l) (fun _ _ => True) E t)
    (hQ : ∀ u, (Γ.discipline P config).Runs s u → Q () u) :
    (Γ.discipline P config).wp q i
      (checkSecret secret hash tryCount lockedUntil reset record invalidMessage) Q E s := by
  have hcompare : ∀ n l t, (Γ.discipline P config).Runs s t → (Γ.discipline P config).wp q i
      (checkSecret.compare secret hash reset record invalidMessage n l) Q E t := by
    intro n l t ht
    refine RelyGuarantee.wp_bind (wp_assertNotLocked hE fun t₁ ht₁ => ?_)
    refine RelyGuarantee.wp_bind (wp_local rfl rfl fun _ t₂ (valid : Bool) ho => ?_)
    have ht₂ : (Γ.discipline P config).Runs s t₂ := (ht.trans ht₁).trans (ho.runs_quiet rfl)
    show (Γ.discipline P config).wp q i (if _ then _ else _) Q E t₂
    split
    · show (Γ.discipline P config).wp q i (if _ then _ else _) Q E t₂
      split
      · refine RelyGuarantee.wp_bind (RelyGuarantee.wp_mono ?_ (fun _ _ he => he) _ (hreset t₂ ht₂))
        exact fun _ u hu => RelyGuarantee.wp_ret (hQ u hu)
      · exact RelyGuarantee.wp_ret (hQ t₂ ht₂)
    · refine RelyGuarantee.wp_bind (wp_lockUntilIfMaxed fun l' t₃ ht₃ => ?_)
      refine RelyGuarantee.wp_bind (RelyGuarantee.wp_mono ?_ (fun _ _ he => he) _
        (hrecord _ l' t₃ (ht₂.trans ht₃)))
      exact fun _ u _ => RelyGuarantee.wp_fail (hE _ u)
  refine RelyGuarantee.wp_bind (wp_lockExpired fun expired t ht => ?_)
  show (Γ.discipline P config).wp q i (if _ then _ else _) Q E t
  split
  · refine RelyGuarantee.wp_bind (RelyGuarantee.wp_mono ?_ (fun _ _ he => he) _ (hreset t ht))
    exact fun _ u hu => hcompare 0 none u hu
  · exact hcompare tryCount lockedUntil t ht

/-- A check of a PIN ends well or denies. -/
theorem wp_verifyPinOrThrow (hgrants : GrantsUsers P config Γ q i) {userId pin : String}
    (hE : ∀ e u, Denies Γ e → E e u)
    (hQ : ∀ u, (Γ.discipline P config).Runs s u → Q () u) :
    (Γ.discipline P config).wp q i (verifyPinOrThrow userId pin) Q E s := by
  have hnet : ∀ u, Γ.Faulty → E .network u := fun u hf => hE _ u (.network hf)
  refine RelyGuarantee.wp_bind (wp_select hnet fun t u ho => ?_)
  refine RelyGuarantee.wp_bind (wp_orThrow (fun _ => hE _ u (.unauthorized _)) fun user huser => ?_)
  obtain ⟨hmem, -⟩ := find?_user huser
  refine RelyGuarantee.wp_bind (wp_throwIf (fun _ => hE _ u (.forbidden _)) fun _ => ?_)
  rw [← ho.db_quiet rfl] at hmem
  have hu : (Γ.discipline P config).Runs s u := ho.runs_quiet rfl
  refine wp_checkSecret (fun m v => hE _ v (.unauthorized m)) ?_ ?_ fun v hv => hQ v (hu.trans hv)
  · exact fun t ht => wp_updateUser hgrants hnet (fun _ h => absurd rfl h) ht hmem fun _ _ hv => hv
  · exact fun n l t ht => wp_updateUser hgrants hnet (fun _ h => absurd rfl h) ht hmem fun _ _ _ => trivial

end AuthCredentialService

/-! ### Accounts -/

namespace AuthService

variable {E : Err → World → Prop}

theorem wp_register (hgrants : GrantsUsers P config Γ q i) (hE : ∀ e u, E e u) {dto : RegisterDto}
    {Q : AuthResult → World → Prop} (hQ : ∀ r u, Q r u) :
    (Γ.discipline P config).wp q i (register P dto) Q E s := by
  have hnet : ∀ u, Γ.Faulty → E .network u := fun u _ => hE _ u
  refine RelyGuarantee.wp_bind (wp_throwIf (fun _ => hE _ _) fun _ => ?_)
  refine RelyGuarantee.wp_bind (wp_throwIf (fun _ => hE _ _) fun _ => ?_)
  refine RelyGuarantee.wp_bind (wp_select hnet fun _ u₁ _ => ?_)
  refine RelyGuarantee.wp_bind (wp_throwIf (fun _ => hE _ _) fun _ => ?_)
  refine RelyGuarantee.wp_bind (wp_select hnet fun _ u₂ _ => ?_)
  refine RelyGuarantee.wp_bind (wp_throwIf (fun _ => hE _ _) fun _ => ?_)
  refine RelyGuarantee.wp_bind (wp_local rfl rfl fun _ u₃ _ _ => ?_)
  refine RelyGuarantee.wp_bind (RelyGuarantee.wp_bind (wp_local rfl rfl fun _ u₄ _ _ => ?_))
  refine RelyGuarantee.wp_bind (wp_local rfl rfl fun _ u₅ _ _ => ?_)
  refine wp_write hnet (fun _ => rfl) (fun _ _ _ hw => hgrants.register hw rfl)
    (fun _ _ _ _ _ _ _ => RelyGuarantee.wp_ret (hQ _ _)) fun _ _ _ _ _ => hE _ _

theorem wp_verifyPasswordOrThrow (hgrants : GrantsUsers P config Γ q i) (hE : ∀ e u, E e u)
    {user : User} {password invalidMessage : String} {Q : Unit → World → Prop}
    (hu : user ∈ s.db.users) (hQ : ∀ u, (Γ.discipline P config).Runs s u → Q () u) :
    (Γ.discipline P config).wp q i
      (AuthCredentialService.verifyPasswordOrThrow user password invalidMessage) Q E s := by
  refine AuthCredentialService.wp_checkSecret (fun _ _ => hE _ _) ?_ ?_ hQ
  · exact fun t ht => wp_updateUser hgrants (fun _ _ => hE _ _) (fun _ _ => hE _ _) ht hu fun _ _ hv => hv
  · exact fun n l t ht => wp_updateUser hgrants (fun _ _ => hE _ _) (fun _ _ => hE _ _) ht hu fun _ _ _ => trivial

theorem wp_login (hgrants : GrantsUsers P config Γ q i) (hE : ∀ e u, E e u) {dto : LoginDto}
    {Q : AuthResult → World → Prop} (hQ : ∀ r u, Q r u) :
    (Γ.discipline P config).wp q i (login P dto) Q E s := by
  have hnet : ∀ u, Γ.Faulty → E .network u := fun u _ => hE _ u
  refine RelyGuarantee.wp_bind (wp_select hnet fun t u ho => ?_)
  refine RelyGuarantee.wp_bind (wp_orThrow (fun _ => hE _ _) fun user huser => ?_)
  have hmem : user ∈ u.db.users := by
    rw [ho.db_quiet rfl]
    exact List.mem_of_find?_eq_some huser
  refine RelyGuarantee.wp_bind (wp_verifyPasswordOrThrow hgrants hE hmem fun _ _ => ?_)
  refine RelyGuarantee.wp_bind (wp_select hnet fun _ _ _ => ?_)
  exact RelyGuarantee.wp_bind (wp_orThrow (fun _ => hE _ _) fun _ _ =>
    RelyGuarantee.wp_ret (hQ _ _))

theorem wp_createPin (hgrants : GrantsUsers P config Γ q i) (hE : ∀ e u, E e u)
    {actor : JwtPayloadUser} {dto : CreatePinDto} {Q : String → World → Prop}
    (hQ : ∀ r u, Q r u) : (Γ.discipline P config).wp q i (createPin actor dto) Q E s := by
  have hnet : ∀ u, Γ.Faulty → E .network u := fun u _ => hE _ u
  refine RelyGuarantee.wp_bind (wp_throwIf (fun _ => hE _ _) fun _ => ?_)
  refine RelyGuarantee.wp_bind (wp_select hnet fun t u ho => ?_)
  refine RelyGuarantee.wp_bind (wp_orThrow (fun _ => hE _ _) fun user huser => ?_)
  have hmem : user ∈ u.db.users := by
    rw [ho.db_quiet rfl]
    exact List.mem_of_find?_eq_some huser
  refine RelyGuarantee.wp_bind (wp_throwIf (fun _ => hE _ _) fun _ => ?_)
  refine RelyGuarantee.wp_bind (wp_verifyPasswordOrThrow hgrants hE hmem fun v hv => ?_)
  refine RelyGuarantee.wp_bind (wp_local rfl rfl fun _ _ _ ho' => ?_)
  exact RelyGuarantee.wp_bind (wp_updateUser hgrants hnet (fun _ _ => hE _ _)
    (hv.trans (ho'.runs_quiet rfl)) hmem fun _ _ _ => RelyGuarantee.wp_ret (hQ _ _))

end AuthService

end WalletApi
