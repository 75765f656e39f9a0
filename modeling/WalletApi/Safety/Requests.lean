import WalletApi.Safety.Deposits

/-!
What a request for a withdrawal answers, and why.

A request that succeeds has either made the withdrawal itself or found the one
that an earlier request with its key has made (`Answers`). A request that fails
has been turned down before its key was looked up, or its key was used for
another body, or it failed while it held the lock of its user's wallet
(`Fails`). The last case hands on whatever was known when the lock was granted
and is protected by it; what that is, is left open here (`Guarded`).
-/

namespace WalletApi

open Concurrency ReadCommitted World Policy WithdrawalRepository

variable {P : Platform} {config : Config} {A : Call → ℕ → Cmd → Choice → World → Prop}
  {i : ℕ} {s t u : World} {actor : JwtPayloadUser} {header : Option String}
  {dto : CreateWithdrawalDto} {key : String}

/-! ### Requests -/

/-- The body of which a request takes the fingerprint. -/
def CreateWithdrawalDto.requestBody (P : Platform) (dto : CreateWithdrawalDto) : Json :=
  match dto.destinationType with
  | .wallet =>
      WithdrawalP2pService.body (P.toLowerCase (trim (dto.recipientUsername.getD "")))
        (P.toUpperCase (dto.currency.getD "NGN")) dto.amount
  | .bank =>
      WithdrawalBankService.body (trim (dto.bankCode.getD "")) (trim (dto.accountNumber.getD ""))
        (trim (dto.accountName.getD "")) (P.toUpperCase (dto.currency.getD "NGN")) dto.amount

def CreateWithdrawalDto.hash (P : Platform) (dto : CreateWithdrawalDto) : String :=
  hashRequestBody P (dto.requestBody P)

/-- What the client is told about a result. -/
def CreateWithdrawalDto.response (dto : CreateWithdrawalDto) (result : ExecuteWithdrawalResult) :
    WithdrawalResponse :=
  match dto.destinationType with
  | .wallet => WithdrawalP2pService.response result
  | .bank => WithdrawalBankService.response result

theorem isUuid4_of_requireIdempotencyKey (h : requireIdempotencyKey header = .ok key) :
    isUuid4 key = true := by
  unfold requireIdempotencyKey at h
  split at h
  · cases h
  · split at h
    · cases h
    · split at h
      · rename_i huuid
        cases h
        exact huuid
      · cases h

/-- The fact is known to a thread that was granted the lock of the user's wallet,
for as long as it holds the lock. -/
structure Guarded (P : Platform) (config : Config) (A : Call → ℕ → Cmd → Choice → World → Prop)
    (G : JwtPayloadUser → String → CreateWithdrawalDto → World → Prop) : Prop where
  prot : ∀ {i x actor key dto}, x.userId = actor.userId →
    Protected P config (bookkeeping A) i [x.id] fun v => x ∈ v.db.wallets ∧ G actor key dto v
  granted : ∀ {i x v actor header key dto}, requireIdempotencyKey header = .ok key →
    x.userId = actor.userId → x ∈ v.db.wallets →
    Granted (bookkeeping A) (.postWithdrawals actor header dto) i (.lockWalletRow x.id) v →
    G actor key dto v

/-- That a wallet exists is known with or without a lock. -/
theorem protected_wallet {L : List String} {Γ : Policy} (x : Wallet) :
    Protected P config Γ i L fun v => x ∈ v.db.wallets where
  others _ _ _ _ hg h := hg.1.grows.wallets x h
  quiet hq h := by
    rw [hq.db]
    exact h

theorem Guarded.true : Guarded P config A fun _ _ _ _ => True where
  prot _ := (protected_wallet _).and .true
  granted _ _ _ _ := trivial

/-! ### Answers -/

/-- How a request that succeeds has come to its answer. -/
inductive Answers (P : Platform) (config : Config)
    (A : Call → ℕ → Cmd → Choice → World → Prop) (q : Call) (i : ℕ) (actor : JwtPayloadUser)
    (key : String) (dto : CreateWithdrawalDto) (r : WithdrawalResponse) (u : World) : Prop
  /-- An earlier request has made the withdrawal. -/
  | replayed (s : World) (w : Withdrawal) (hr : r = dto.response ⟨w, false⟩)
      (h : Replays P config (bookkeeping A) q i s actor.userId key (dto.hash P) w u)
  /-- The request itself has made the withdrawal, and enqueued its payout. -/
  | created (t v : World) (ws : List Write) (w : Withdrawal) (hr : r = dto.response ⟨w, true⟩)
      (hc : Commits P config (bookkeeping A) q i ws t v)
      (hvu : ((bookkeeping A).discipline P config).Runs v u)
      (hrow : ∃ row, Write.createWithdrawal row ∈ ws ∧ row.userId = actor.userId ∧
        row.idempotencyKey = key)
      (hw : w ∈ v.db.withdrawals) (hkey : w.userId = actor.userId ∧ w.idempotencyKey = key)
      (hhash : w.requestBodyHash = dto.hash P)
      (hjob : (∃ e ∈ u.history, e.added = some (payoutJob w.id)) ∨ w.destinationType = .wallet)

/-- Why a request has failed. -/
inductive Fails (P : Platform) (config : Config)
    (A : Call → ℕ → Cmd → Choice → World → Prop) (G : World → Prop) (actor : JwtPayloadUser)
    (key : String) (dto : CreateWithdrawalDto) (e : Err) (u : World) : Prop
  | denied (h : Denies (bookkeeping A) e)
  | conflict (t : World) (w : Withdrawal) (htu : ((bookkeeping A).discipline P config).Runs t u)
      (hw : w ∈ t.db.withdrawals) (hkey : w.userId = actor.userId ∧ w.idempotencyKey = key)
      (hhash : w.requestBodyHash ≠ dto.hash P)
  | locked (h : G u)

/-- A refusal of one of the two operations, seen from the request. -/
theorem Fails.of_refuses {G : World → Prop} {ids : List String} {x : Wallet} {e : Err}
    (hids : ∀ id ∈ ids, ∃ x ∈ s.db.wallets, x.id = id)
    (h : Refuses P config (bookkeeping A) s actor.userId key (dto.hash P) ids
      (fun v => x ∈ v.db.wallets ∧ G v) e u) : Fails P config A G actor key dto e u := by
  rcases h with ⟨rfl, hf⟩ | ⟨t, _, htu, w, hw, huser, hkey, hhash⟩ | ⟨t, hst, id, hid, hnone⟩ | h
  · exact .denied (.network hf)
  · exact .conflict t w htu hw ⟨huser, hkey⟩ hhash
  · obtain ⟨x, hx, hxid⟩ := hids id hid
    exact absurd hxid (hnone x ((grows_of_runs hst).wallets x hx))
  · exact .locked h.2

variable {G : JwtPayloadUser → String → CreateWithdrawalDto → World → Prop}

namespace WithdrawalP2pService

theorem wp_create (hG : Guarded P config A G) (hkey : requireIdempotencyKey header = .ok key)
    (hd : dto.destinationType = .wallet) :
    ((bookkeeping A).discipline P config).wp (.postWithdrawals actor header dto) i
      (create P actor dto key)
      (Answers P config A (.postWithdrawals actor header dto) i actor key dto)
      (Fails P config A (G actor key dto) actor key dto) s := by
  have hnet : ∀ u, (bookkeeping A).Faulty →
      Fails P config A (G actor key dto) actor key dto .network u :=
    fun u hf => .denied (.network hf)
  refine RelyGuarantee.wp_bind (TransferCreateService.wp_requireNgn
    (fun m => .denied (.badRequest m)) fun currency hcurrency => ?_)
  refine RelyGuarantee.wp_bind (wp_throwIf (fun _ => .denied (.badRequest _)) fun _ => ?_)
  refine RelyGuarantee.wp_bind (wp_select hnet fun t₁ u₁ ho₁ => ?_)
  refine RelyGuarantee.wp_bind (wp_orThrow (fun _ => .denied (.notFound _)) fun sender hsender => ?_)
  obtain ⟨hsmem, hsuser⟩ := TransferCreateService.find?_wallet hsender
  rw [← ho₁.db_quiet rfl] at hsmem
  refine RelyGuarantee.wp_bind (wp_select hnet fun t₂ u₂ ho₂ => ?_)
  refine RelyGuarantee.wp_bind (wp_orThrow (fun _ => .denied (.notFound _)) fun recipient _ => ?_)
  refine RelyGuarantee.wp_bind (wp_throwIf (fun _ => .denied (.badRequest _)) fun _ => ?_)
  refine RelyGuarantee.wp_bind (wp_select hnet fun t₃ u₃ ho₃ => ?_)
  refine RelyGuarantee.wp_bind (wp_orThrow (fun _ => .denied (.notFound _)) fun wallet hwallet => ?_)
  obtain ⟨hwmem, -⟩ := TransferCreateService.find?_wallet hwallet
  rw [← ho₃.db_quiet rfl] at hwmem
  refine RelyGuarantee.wp_bind (wp_throwIf (fun _ => .denied .inactive) fun _ => ?_)
  -- Both wallets are there when `executeP2p` begins.
  have hu₃ := (ho₂.runs_quiet rfl).trans (ho₃.runs_quiet rfl)
  have hsmem' := (grows_of_runs hu₃).wallets sender hsmem
  have hhash : hashRequestBody P (body (P.toLowerCase (trim (dto.recipientUsername.getD "")))
      currency dto.amount) = dto.hash P := by
    rw [CreateWithdrawalDto.hash, CreateWithdrawalDto.requestBody, hd, hcurrency]
  rw [hhash]
  have hresponse : ∀ result, response result = dto.response result := by
    intro result
    rw [CreateWithdrawalDto.response, hd]
  refine RelyGuarantee.wp_bind (wp_executeP2p _ (fun e u he => .of_refuses ?_ he) (hG.prot hsuser)
    ?_ (grantsP2p (lt_of_lt_of_le Int.zero_lt_one dto.amount_min)
      (isUuid4_of_requireIdempotencyKey hkey) ⟨sender, hsmem', rfl, hsuser⟩) ?_ ?_)
  · intro id hid
    rcases List.mem_cons.mp hid with rfl | hid
    · exact ⟨sender, hsmem', rfl⟩
    · exact ⟨wallet, hwmem, (List.mem_singleton.mp hid).symm⟩
  · intro t hst _ hgranted
    have hx := (grows_of_runs hst).wallets sender hsmem'
    exact ⟨hx, hG.granted hkey hsuser hx hgranted⟩
  · exact fun w u hw => RelyGuarantee.wp_ret (.replayed _ w (hresponse _) hw)
  · intro t v a b c _ _ hc
    have hdb := ExecuteP2pWithdrawalData.db_of_commits _ hc
    refine RelyGuarantee.wp_ret (.created t v _ _ (hresponse _) hc .refl ⟨_, .head _, rfl, rfl⟩ ?_
      ⟨rfl, rfl⟩ rfl (.inr rfl))
    rw [hdb]
    exact List.mem_append_right _ (.head _)

end WithdrawalP2pService

namespace WithdrawalBankService

theorem wp_create (hG : Guarded P config A G) (hkey : requireIdempotencyKey header = .ok key)
    (hd : dto.destinationType = .bank) :
    ((bookkeeping A).discipline P config).wp (.postWithdrawals actor header dto) i
      (create P actor dto key)
      (Answers P config A (.postWithdrawals actor header dto) i actor key dto)
      (Fails P config A (G actor key dto) actor key dto) s := by
  have hnet : ∀ u, (bookkeeping A).Faulty →
      Fails P config A (G actor key dto) actor key dto .network u :=
    fun u hf => .denied (.network hf)
  refine RelyGuarantee.wp_bind (TransferCreateService.wp_requireNgn
    (fun m => .denied (.badRequest m)) fun currency hcurrency => ?_)
  refine RelyGuarantee.wp_bind (wp_throwIf (fun _ => .denied (.badRequest _)) fun _ => ?_)
  refine RelyGuarantee.wp_bind (wp_select hnet fun t₁ u₁ ho₁ => ?_)
  refine RelyGuarantee.wp_bind (wp_orThrow (fun _ => .denied (.notFound _)) fun wallet hwallet => ?_)
  obtain ⟨hwmem, hwuser⟩ := TransferCreateService.find?_wallet hwallet
  rw [← ho₁.db_quiet rfl] at hwmem
  refine RelyGuarantee.wp_bind (wp_throwIf (fun _ => .denied .inactive) fun _ => ?_)
  refine RelyGuarantee.wp_bind (wp_local rfl rfl fun t₂ u₂ uuid ho₂ => ?_)
  have hwmem' := (grows_of_runs (ho₂.runs_quiet rfl)).wallets wallet hwmem
  have hhash : hashRequestBody P (body (trim (dto.bankCode.getD ""))
      (trim (dto.accountNumber.getD "")) (trim (dto.accountName.getD "")) currency dto.amount) =
      dto.hash P := by
    rw [CreateWithdrawalDto.hash, CreateWithdrawalDto.requestBody, hd, hcurrency]
  rw [hhash]
  have hresponse : ∀ result, response result = dto.response result := by
    intro result
    rw [CreateWithdrawalDto.response, hd]
  refine RelyGuarantee.wp_bind (wp_executeBankAccept _ (fun e u he => .of_refuses ?_ he)
    (hG.prot hwuser) ?_ (grantsBank (lt_of_lt_of_le Int.zero_lt_one dto.amount_min)
      (isUuid4_of_requireIdempotencyKey hkey) ⟨wallet, hwmem', rfl, hwuser⟩) ?_ ?_)
  · intro id hid
    exact ⟨wallet, hwmem', (List.mem_singleton.mp hid).symm⟩
  · intro t hst _ hgranted
    have hx := (grows_of_runs hst).wallets wallet hwmem'
    exact ⟨hx, hG.granted hkey hwuser hx hgranted⟩
  · exact fun w u hw => RelyGuarantee.wp_ret (.replayed _ w (hresponse _) hw)
  · intro t v a b _ _ hc
    have hdb := ExecuteBankWithdrawalData.db_of_commits _ hc
    -- Only the request that has made the withdrawal enqueues its payout.
    refine RelyGuarantee.wp_bind (wp_queueAdd hnet fun t₃ u₃ ho₃ => ?_)
    have hjob : ∃ e ∈ u₃.history, e.added = some (payoutJob a.1) := by
      rcases ho₃.answer with ⟨_, hr, -⟩ | ⟨ch, r', s', hp, hr | ⟨_, hr⟩, rfl⟩
      · cases hr
      · cases hp
        exact ⟨_, .head _, rfl⟩
      · cases hr
    refine RelyGuarantee.wp_ret (.created t v _ _ (hresponse _) hc (ho₃.runs_quiet rfl)
      ⟨_, .head _, rfl, rfl⟩ ?_ ⟨rfl, rfl⟩ rfl (.inl hjob))
    rw [hdb]
    exact List.mem_append_right _ (.head _)

end WithdrawalBankService

namespace WithdrawalsService

theorem wp_create (hG : Guarded P config A G) (hkey : requireIdempotencyKey header = .ok key) :
    ((bookkeeping A).discipline P config).wp (.postWithdrawals actor header dto) i
      (create P actor dto key)
      (Answers P config A (.postWithdrawals actor header dto) i actor key dto)
      (Fails P config A (G actor key dto) actor key dto) s := by
  refine RelyGuarantee.wp_bind (AuthCredentialService.wp_verifyPinOrThrow grantsUsers
    (fun _ _ h => .denied h) fun _ _ => ?_)
  show RelyGuarantee.wp _ _ _ (match dto.destinationType with
    | .wallet => _
    | .bank => _) _ _ _
  split
  · exact WithdrawalP2pService.wp_create hG hkey (by assumption)
  · exact WithdrawalBankService.wp_create hG hkey (by assumption)

end WithdrawalsService

end WalletApi
