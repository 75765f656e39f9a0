import WalletApi.Safety.Reconciliation

/-!
One effect for each idempotency key.

The rows of the journal carry keys of their own, which are put together from the
user and the key of the request. A key that has passed `requireIdempotencyKey`
has a fixed length, so the user and the key can be read off such a text again,
and different kinds of rows have different texts.
-/

namespace WalletApi

open Concurrency WalletTransactionRepository

variable {d : Db} {w w' : Withdrawal} {r r' : WalletTransaction} {userId key : String}

/-! ### The texts of the keys -/

theorem length_of_matchesUuid {ps cs : List Char} (h : matchesUuid ps cs = true) :
    cs.length = ps.length := by
  induction ps generalizing cs with
  | nil =>
      cases cs with
      | nil => rfl
      | cons c cs => cases h
  | cons p ps ih =>
      cases cs with
      | nil => cases h
      | cons c cs =>
          rw [matchesUuid, Bool.and_eq_true] at h
          rw [List.length_cons, List.length_cons, ih h.2]

theorem length_of_isUuid4 {s : String} (h : isUuid4 s = true) : s.toList.length = 36 :=
  length_of_matchesUuid h

/-- The keys of requests are texts that a column can hold. -/
theorem isColumnText_of_isUuid4 {s : String} (h : isUuid4 s = true) : isColumnText s = true := by
  have hmatches : ∀ ps cs : List Char, Char.ofNat 0 ∉ ps → matchesUuid ps cs = true →
      cs.all (· ≠ Char.ofNat 0) = true := by
    intro ps cs hps hcs
    induction ps, cs using matchesUuid.induct with
    | case1 => rfl
    | case2 p ps c cs ih =>
        rw [matchesUuid, Bool.and_eq_true] at hcs
        rw [List.all_cons, ih (fun hp => hps (.tail _ hp)) hcs.2, Bool.and_true, decide_eq_true_iff]
        rintro rfl
        -- The pattern would have to hold the character itself.
        refine hps (List.mem_cons.mpr (.inl ?_))
        have hp := hcs.1
        unfold matchesUuidChar at hp
        split at hp
        · cases hp
        · split at hp
          · cases hp
          · exact (of_decide_eq_true hp).symm
    | case3 ps cs hne hcons =>
        simp [matchesUuid] at hcs
  exact hmatches _ _ (by decide) h

/-- The user and the key can be read off a text that both are part of. -/
theorem key_inj {start u k u' k' : String} (hk : isUuid4 k = true) (hk' : isUuid4 k' = true)
    (h : start ++ u ++ ":" ++ k = start ++ u' ++ ":" ++ k') : u = u' ∧ k = k' := by
  have hlength : k.toList.length = k'.toList.length :=
    (length_of_isUuid4 hk).trans (length_of_isUuid4 hk').symm
  have hlist := congrArg String.toList h
  simp only [String.toList_append] at hlist
  obtain ⟨hu, hkey⟩ := List.append_inj' hlist hlength
  obtain ⟨hu, -⟩ := List.append_inj' hu rfl
  exact ⟨String.toList_injective (List.append_cancel_left hu), String.toList_injective hkey⟩

/-- Texts that differ at the start are different. -/
theorem ne_of_take {a b x y : String} (n : ℕ) (ha : n ≤ a.toList.length)
    (hb : n ≤ b.toList.length) (h : a.toList.take n ≠ b.toList.take n) : a ++ x ≠ b ++ y := by
  intro heq
  have htake := congrArg (List.take n ∘ String.toList) heq
  simp only [Function.comp, String.toList_append, List.take_append_of_le_length ha,
    List.take_append_of_le_length hb] at htake
  exact h htake

/-- The keys of the journal rows that a request for a withdrawal may write. -/
def withdrawalRowKeys (userId key : String) : List String :=
  ["p2p-debit:" ++ userId ++ ":" ++ key, "p2p-credit:" ++ userId ++ ":" ++ key,
    "bank-debit:" ++ userId ++ ":" ++ key]

/-- The kinds of rows, told apart by their keys. -/
def keyStarts : List String := ["p2p-debit:", "p2p-credit:", "bank-debit:", "funding:", "reversal:"]

theorem ne_of_keyStarts {a b x y : String} (ha : a ∈ keyStarts) (hb : b ∈ keyStarts)
    (hab : a ≠ b) : a ++ x ≠ b ++ y := by
  have hstarts : ∀ a ∈ keyStarts, ∀ b ∈ keyStarts, a ≠ b →
      5 ≤ a.toList.length ∧ 5 ≤ b.toList.length ∧ a.toList.take 5 ≠ b.toList.take 5 := by
    decide
  obtain ⟨ha, hb, hne⟩ := hstarts a ha b hb hab
  exact ne_of_take 5 ha hb hne

/-- A row with the key of a request has been written for the withdrawal of the
request. -/
theorem exists_withdrawal_of_rowKey (hb : d.Books) (hkey : isUuid4 key = true)
    (hr : r ∈ d.walletTransactions) (hrow : r.idempotencyKey ∈ withdrawalRowKeys userId key) :
    ∃ w ∈ d.withdrawals, w.userId = userId ∧ w.idempotencyKey = key := by
  have hstart : ∃ a ∈ keyStarts, r.idempotencyKey = a ++ userId ++ ":" ++ key ∧
      a ∈ ["p2p-debit:", "p2p-credit:", "bank-debit:"] := by
    simp only [withdrawalRowKeys, List.mem_cons, List.not_mem_nil, or_false] at hrow
    rcases hrow with h | h | h
    · exact ⟨_, by decide, h, by decide⟩
    · exact ⟨_, by decide, h, by decide⟩
    · exact ⟨_, by decide, h, by decide⟩
  obtain ⟨a, ha, hra, ha'⟩ := hstart
  -- A row of a withdrawal has one of these keys, made from its own user and key.
  have same {b : String} {w : Withdrawal} (hb' : b ∈ keyStarts) (hw : w ∈ d.withdrawals)
      (hrb : r.idempotencyKey = b ++ w.userId ++ ":" ++ w.idempotencyKey) :
      ∃ w ∈ d.withdrawals, w.userId = userId ∧ w.idempotencyKey = key := by
    have heq := hra.symm.trans hrb
    have hab : a = b := by
      by_contra hne
      rw [String.append_assoc, String.append_assoc, String.append_assoc,
        String.append_assoc] at heq
      exact ne_of_keyStarts ha hb' hne heq
    subst hab
    obtain ⟨hu, hk⟩ := key_inj hkey (hb.withdrawal w hw).key heq
    exact ⟨w, hw, hu.symm, hk.symm⟩
  have different {b x : String} (hb' : b ∈ keyStarts)
      (hne : b ∉ ["p2p-debit:", "p2p-credit:", "bank-debit:"]) (hrb : r.idempotencyKey = b ++ x) :
      False := by
    have heq := hra.symm.trans hrb
    rw [String.append_assoc, String.append_assoc] at heq
    exact ne_of_keyStarts ha hb' (fun hab => hne (hab ▸ ha')) heq
  cases hb.origin r hr with
  | funding t _ hmade _ =>
      have hk : r.core.idempotencyKey = t.creditData.idempotencyKey := by rw [hmade]; rfl
      have hk' : r.idempotencyKey = "funding:" ++ (t.userId ++ (":" ++ t.idempotencyKey)) := by
        rw [← String.append_assoc, ← String.append_assoc]
        exact hk
      exact (different (by decide) (by decide) hk').elim
  | debit w hw hmade =>
      have hk : r.idempotencyKey = w.debitData.idempotencyKey := by rw [hmade]; rfl
      unfold Withdrawal.debitData at hk
      split at hk
      · exact same (by decide) hw hk
      · exact same (by decide) hw hk
  | credit w hw _ hmade =>
      have hk : r.idempotencyKey = w.creditData.idempotencyKey := by rw [hmade]; rfl
      exact same (by decide) hw hk
  | reversal w hw _ hmade =>
      have hk : r.idempotencyKey = w.reversalData.idempotencyKey := by rw [hmade]; rfl
      exact (different (by decide) (by decide) hk).elim

/-! ### The rows of a withdrawal -/

/-- A withdrawal has one debit, of its amount, on the wallet of its user. -/
theorem debit_unique (hu : d.Unique) (hb : d.Books) (hw : w ∈ d.withdrawals) :
    ∃ r, d.walletTransactions.filter (fun r => r.type = .debit ∧ r.withdrawalId = some w.id) =
        [r] ∧ r.status = .successful ∧ r.amount = w.amount ∧ r.walletId = w.walletId := by
  obtain ⟨r, hr, -, hmade⟩ := (hb.withdrawal w hw).debit
  have htype : r.type = .debit := by rw [hmade]; exact w.debitData_type
  have hid : r.withdrawalId = some w.id := by rw [hmade]; exact w.debitData_withdrawalId
  refine ⟨r, filter_eq_singleton (.of_map _ hu.rowIds_nodup) hr ⟨htype, hid⟩ ?_,
    hmade.status.trans w.debitData_status, ?_, ?_⟩
  · rintro r' hr' ⟨htype', hid'⟩
    cases hb.origin r' hr' with
    | funding t _ hmade' _ =>
        have hcore : r'.core.type = .credit := by rw [hmade']; rfl
        cases htype'.symm.trans hcore
    | debit w' hw' hmade' =>
        have hidw : r'.withdrawalId = some w'.id := by
          rw [hmade']
          exact w'.debitData_withdrawalId
        rw [hu.withdrawal_ext hw' hw (Option.some.inj (hidw.symm.trans hid'))] at hmade'
        exact eq_of_madeFrom hu hr' hr hmade' hmade
    | credit w' _ _ hmade' =>
        rw [hmade'] at htype'
        cases htype'
    | reversal w' _ _ hmade' =>
        rw [hmade'] at htype'
        cases htype'
  · rw [hmade]
    exact w.debitData_amount
  · rw [hmade]
    exact w.debitData_walletId

/-- A withdrawal to another wallet has one credit, of its amount, on that wallet. -/
theorem credit_unique (hu : d.Unique) (hb : d.Books) (hw : w ∈ d.withdrawals)
    (hd : w.destinationType = .wallet) :
    ∃ r, d.walletTransactions.filter (fun r => r.type = .credit ∧ r.withdrawalId = some w.id) =
        [r] ∧ r.status = .successful ∧ r.amount = w.amount ∧
        w.destinationWalletId = some r.walletId := by
  obtain ⟨r, hr, -, hmade⟩ := (hb.withdrawal w hw).credit hd
  obtain ⟨x, -, hx⟩ := (hb.withdrawal w hw).destination hd
  refine ⟨r, filter_eq_singleton (.of_map _ hu.rowIds_nodup) hr ⟨by rw [hmade]; rfl,
    by rw [hmade]; rfl⟩ ?_, hmade.status, by rw [hmade]; rfl, ?_⟩
  · rintro r' hr' ⟨htype', hid'⟩
    cases hb.origin r' hr' with
    | funding t _ hmade' _ =>
        have hcore : r'.core.withdrawalId = none := by rw [hmade']; rfl
        cases hid'.symm.trans hcore
    | debit w' _ hmade' =>
        rw [hmade'] at htype'
        cases w'.debitData_type.symm.trans htype'
    | credit w' hw' _ hmade' =>
        have hidw : r'.withdrawalId = some w'.id := by rw [hmade']; rfl
        rw [hu.withdrawal_ext hw' hw (Option.some.inj (hidw.symm.trans hid'))] at hmade'
        exact eq_of_madeFrom hu hr' hr hmade' hmade
    | reversal w' hw' hd' hmade' =>
        have hidw : r'.withdrawalId = some w'.id := by rw [hmade']; rfl
        rw [hu.withdrawal_ext hw' hw (Option.some.inj (hidw.symm.trans hid')), hd] at hd'
        cases hd'
  · have hwallet : r.walletId = w.destinationWalletId.getD "" := by rw [hmade]; rfl
    rw [hwallet, hx]
    rfl

/-! ### The result -/

section Runs

open Schedule

variable {P : Platform} {config : Config}

/-- A key is used for at most one withdrawal of the user. If there is one, it has
exactly the rows it should have; if there is none, no row of such a request is
there either. -/
theorem one_effect_per_key {header : Option String}
    (hkey : requireIdempotencyKey header = .ok key) {cfg : Machine.Config (walletApi P config)}
    (h : Machine.Reachable (requests P config) World.initial cfg) (userId : String) :
    (cfg.state.db.withdrawals.filter fun w => w.userId = userId ∧ w.idempotencyKey = key).length ≤ 1 ∧
    (∀ w ∈ cfg.state.db.withdrawals, w.userId = userId → w.idempotencyKey = key →
      (∃ r, cfg.state.db.walletTransactions.filter
            (fun r => r.type = .debit ∧ r.withdrawalId = some w.id) = [r] ∧
          r.status = .successful ∧ r.amount = w.amount ∧
          ∃ x ∈ cfg.state.db.wallets, x.userId = userId ∧ r.walletId = x.id) ∧
      (w.destinationType = .wallet → ∃ r, cfg.state.db.walletTransactions.filter
            (fun r => r.type = .credit ∧ r.withdrawalId = some w.id) = [r] ∧
          r.status = .successful ∧ r.amount = w.amount ∧
          w.destinationWalletId = some r.walletId)) ∧
    ((∀ w ∈ cfg.state.db.withdrawals, ¬(w.userId = userId ∧ w.idempotencyKey = key)) →
      ∀ r ∈ cfg.state.db.walletTransactions, r.idempotencyKey ∉ withdrawalRowKeys userId key) := by
  obtain ⟨hu, hb, -⟩ := books_of_reachable h
  refine ⟨?_, ?_, ?_⟩
  · have hone := filter_eq_nil_or_singleton (.of_map _ hu.withdrawalIds_nodup)
      (p := fun w => w.userId = userId ∧ w.idempotencyKey = key) fun w hw w' hw' hp hp' =>
        hu.withdrawal_of_idempotencyKey hw hw' (hp.1.trans hp'.1.symm) (hp.2.trans hp'.2.symm)
    rcases hone with hnil | ⟨w, -, -, hw⟩
    · rw [hnil]
      exact Nat.zero_le 1
    · rw [hw]
      exact le_rfl
  · intro w hw huser hwkey
    refine ⟨?_, credit_unique hu hb hw⟩
    obtain ⟨r, hr, hs, hamount, hwallet⟩ := debit_unique hu hb hw
    obtain ⟨x, hx, hid, hxuser⟩ := (hb.withdrawal w hw).wallet
    exact ⟨r, hr, hs, hamount, x, hx, hxuser.trans huser, hwallet.trans hid.symm⟩
  · intro hnone r hr hrow
    obtain ⟨w, hw, hboth⟩ :=
      exists_withdrawal_of_rowKey hb (isUuid4_of_requireIdempotencyKey hkey) hr hrow
    exact hnone w hw hboth

/-- Two requests with one key, one to Bob and one to a bank: the second loses. -/
def oneKeySchedule : List (Machine.Action (walletApi platform mockConfig)) :=
  fundedAda ++ sendToBob 6 idempotencyKey "x1" "r2" "r3" ++
    .spawn 7 (.postWithdrawals ⟨"u1"⟩ (some idempotencyKey) toBank) :: calm 7 5

theorem one_effect_per_key_schedule :
    ∃ cfg, Machine.replayUnder (requests platform mockConfig) (.initial World.initial)
        oneKeySchedule = some cfg ∧
      (cfg.state.db.withdrawals.filter fun w =>
        w.userId = "u1" ∧ w.idempotencyKey = idempotencyKey).length = 1 := by
  have hkey : requireIdempotencyKey (some idempotencyKey) = .ok idempotencyKey := by decide +kernel
  have hrun : (Machine.replayUnder (requests platform mockConfig) (.initial World.initial)
      oneKeySchedule).any fun cfg => 0 < (cfg.state.db.withdrawals.filter fun w =>
        w.userId = "u1" ∧ w.idempotencyKey = idempotencyKey).length := by decide +kernel
  obtain ⟨cfg, hcfg, hpos⟩ := (Option.any_eq_true ..).mp hrun
  have hone := (one_effect_per_key hkey (.replayUnder hcfg) "u1").1
  exact ⟨cfg, hcfg, le_antisymm hone (of_decide_eq_true hpos)⟩

end Runs

end WalletApi
