import WalletApi.Safety.Requests

/-!
The two workers of a bank withdrawal keep the books.

Both read the withdrawal first and go on only if it is open. Everything they do
afterwards is justified by what they have read and by what the provider has
answered, so what has to be carried from step to step is this: the fixed columns
of the withdrawal are still what they were, and whatever has happened to its
status since then is on record (`Tracked`).
-/

namespace WalletApi

open Concurrency ReadCommitted World Policy WalletTransactionRepository WithdrawalRepository
  WithdrawalPayoutService

variable {P : Platform} {config : Config} {A : Call → ℕ → Cmd → Choice → World → Prop} {q : Call}
  {i : ℕ} {s t u v : World} {α : Type} {w₀ : Withdrawal} {debitId : String}

/-! ### What becomes of a withdrawal -/

/-- The withdrawals of `s` are still there in `t`, and each change of a status is
on record. -/
structure Tracked (s t : World) : Prop where
  fixed : ∀ w ∈ s.db.withdrawals, ∃ w' ∈ t.db.withdrawals, w'.fixed = w.fixed
  status : ∃ es, t.history = es ++ s.history ∧
    ∀ w ∈ s.db.withdrawals, ∀ w' ∈ t.db.withdrawals, w'.id = w.id →
      w'.status = w.status ∨ ∃ e ∈ es, e.statusWritten w.id = some w'.status

theorem Tracked.trans (h : Tracked s t) (h' : Tracked t u) : Tracked s u where
  fixed w hw := by
    obtain ⟨w', hw', hfixed⟩ := h.fixed w hw
    obtain ⟨w'', hw'', hfixed'⟩ := h'.fixed w' hw'
    exact ⟨w'', hw'', hfixed'.trans hfixed⟩
  status := by
    obtain ⟨es, hes, hstatus⟩ := h.status
    obtain ⟨es', hes', hstatus'⟩ := h'.status
    refine ⟨es' ++ es, by rw [hes', hes, List.append_assoc], fun w hw w'' hw'' hid => ?_⟩
    obtain ⟨w', hw', hfixed⟩ := h.fixed w hw
    have hid' : w'.fixed.id = w.fixed.id := by rw [hfixed]
    have hid' : w'.id = w.id := hid'
    rcases hstatus' w' hw' w'' hw'' (hid.trans hid'.symm) with heq | ⟨e, he, hwritten⟩
    · rw [heq]
      rcases hstatus w hw w' hw' hid' with heq' | ⟨e, he, hwritten⟩
      · exact .inl heq'
      · exact .inr ⟨e, List.mem_append_right _ he, hwritten⟩
    · exact .inr ⟨e, List.mem_append_left _ he, hid' ▸ hwritten⟩

/-- What one step leaves on record. -/
theorem Tracked.of_step (hs : s.db.Unique) (hstep : Stepped P config i s t)
    (hm : Moved A i s t) : Tracked s t where
  fixed w hw := by
    rcases hm.db with heq | he
    · exact ⟨w, heq ▸ hw, rfl⟩
    · exact (he.keeps hs).withdrawals w hw
  status := by
    obtain ⟨es, hes⟩ := hstep.history
    refine ⟨es, hes, fun w hw w' hw' hid => (hm.status w hw w' hw' hid).imp_right ?_⟩
    rintro ⟨⟨e, he, hwritten⟩, -⟩
    have hone : es = [e] := List.append_cancel_right (hes.symm.trans he)
    exact ⟨e, hone ▸ .head _, hwritten⟩

theorem tracked_of_runs (h : ((bookkeeping A).discipline P config).Runs s t) (hs : s.db.Unique) :
    Tracked s t := by
  have hrefl : ∀ s : World, s.db.Unique → Tracked s s := fun s hs =>
    ⟨fun w hw => ⟨w, hw, rfl⟩, [], rfl, fun w hw w' hw' hid => by
      rw [hs.withdrawal_ext hw' hw hid]
      exact .inl rfl⟩
  induction h with
  | refl => exact hrefl s hs
  | tail _ hlast ih =>
      obtain ⟨hmid, -, j, hg⟩ := hlast
      exact ih.trans (.of_step hmid.2.1 hg.1 hg.2.2)

/-- A thread that has read an open withdrawal watches it from then on. -/
theorem watched_of_read {id : String}
    (ho : Own (bookkeeping A) P config q i (.select .pool (.withdrawalById id)) s t
      (.ok (some w₀)) u)
    (hw : w₀ ∈ t.db.withdrawals) (hid : w₀.id = id) (hopen : w₀.status.terminal = false)
    (hr : ((bookkeeping A).discipline P config).Runs u v) : v.Watched i id := by
  obtain ⟨es, hes, hstatus⟩ := (tracked_of_runs hr (ho.inv_quiet rfl).2.1).status
  obtain ⟨ch, -, he⟩ := ho.exec
  obtain ⟨took, hh⟩ := exec_history he
  refine ⟨es, _, t.history, w₀.status, by rw [hes, hh], ?_, hopen, fun w hwv hwid => ?_⟩
  · exact decide_eq_true ⟨rfl, rfl⟩
  · have hwu : w₀ ∈ u.db.withdrawals := by
      rw [ho.db_quiet rfl]
      exact hw
    exact hid ▸ hstatus w₀ hwu w hwv (hwid.trans hid.symm)

theorem find?_withdrawal_id {d : Db} {id : String} {w : Withdrawal}
    (h : (Query.withdrawalById id).run d = some w) : w ∈ d.withdrawals ∧ w.id = id := by
  have hp := List.find?_some h
  exact ⟨List.mem_of_find?_eq_some h, of_decide_eq_true hp⟩

/-! ### Grants -/

/-- A status or a transfer id is written by a thread that watches the withdrawal. -/
theorem grant_updateWithdrawal {id : String} {data : UpdateWithdrawalProviderData}
    (hw : Wrote P config (bookkeeping A) q i (.updateWithdrawal id data) t u)
    (hdebit : data.debitTransactionId = none) (hcredit : data.creditTransactionId = none)
    (hwatched : t.Watched i id)
    (htransferId : ∀ transferId, data.providerTransferId = some (some transferId) →
      ∀ w ∈ t.db.withdrawals, w.id = id → w.destinationType = .bank ∧ t.Accepted w transferId) :
    (bookkeeping A).Inv u ∧ (bookkeeping A).Guar i t u := by
  obtain ⟨r, hh⟩ := hw.history
  have hinv : (bookkeeping A).Inv t := hw.inv.2.2
  have he : t.db.Effect u.db := by
    rw [hw.db]
    exact .updateWithdrawal id data hdebit hcredit
  have hrows : u.db.walletTransactions = t.db.walletTransactions := by
    rw [hw.db]
    rfl
  have hmem : ∀ w' ∈ u.db.withdrawals, ∃ w ∈ t.db.withdrawals,
      w'.id = w.id ∧ w'.fixed = w.fixed ∧ (w' = w ∨ w.id = id ∧ w' = w.patch data) := by
    intro w' hw'
    rw [hw.db] at hw'
    obtain ⟨w, hwt, rfl⟩ := List.mem_map.mp hw'
    refine ⟨w, hwt, ?_⟩
    split
    · rename_i hid
      exact ⟨rfl, Withdrawal.fixed_patch hdebit hcredit w, .inr ⟨hid, rfl⟩⟩
    · exact ⟨rfl, rfl, .inl rfl⟩
  refine grant hinv hw.unique he hh rfl ?_ ?_ ?_ fun r hr _ => .inl (hrows ▸ hr)
  · intro w' hw'
    obtain ⟨w, hwt, -, hfixed, -⟩ := hmem w' hw'
    exact .inl ⟨w, hwt, hfixed⟩
  · intro w hwt w' hw' hid
    obtain ⟨x, hx, hid', -, rfl | ⟨hxid, rfl⟩⟩ := hmem w' hw'
    · rw [hinv.1.withdrawal_ext hx hwt hid]
      exact .inl rfl
    · have hxw : x = w := hinv.1.withdrawal_ext hx hwt hid
      subst hxw
      cases hs : data.status with
      | none => exact .inl (by rw [Withdrawal.patch, hs]; rfl)
      | some status =>
          have hpatch : (x.patch data).status = status := by
            rw [Withdrawal.patch, hs]
            rfl
          obtain ⟨ch, hf, ha⟩ := hw.taken
          refine .inr ⟨?_, hxid ▸ hwatched, q, ch, data, hf, hpatch ▸ hs, hxid ▸ ha⟩
          rw [hpatch, ← hs]
          exact if_pos hxid.symm
  · intro w' hw' transferId hid
    obtain ⟨w, hwt, -, hfixed, rfl | ⟨hwid, rfl⟩⟩ := hmem w' hw'
    · exact .inl ⟨w', hwt, hfixed, hid⟩
    · cases hp : data.providerTransferId with
      | none =>
          have hold : w.providerTransferId = some transferId := by
            rw [Withdrawal.patch, hp] at hid
            exact hid
          exact .inl ⟨w, hwt, hfixed, hold⟩
      | some new =>
          have hnew : new = some transferId := by
            rw [Withdrawal.patch, hp] at hid
            exact hid
          obtain ⟨hd, hacc⟩ := htransferId transferId (hp.trans (congrArg some hnew)) w hwt hwid
          exact .inr ⟨hd, hacc.mono (fun e' he' => by rw [hh]; exact .tail _ he') hfixed⟩

/-- A reversal is posted by a thread that watches the withdrawal, after a refusal. -/
theorem grant_reversal {stamp : String × ℕ}
    (hc : Commits P config (bookkeeping A) q i [.createWalletTransaction
      ((reversalInput w₀.id w₀.walletId w₀.amount debitId).data.row stamp.1 stamp.2)] t u)
    (hw : ∃ w ∈ t.db.withdrawals, w.fixed = w₀.fixed) (hd : w₀.destinationType = .bank)
    (hdebit : w₀.debitTransactionId = some debitId) (hwatched : t.Watched i w₀.id)
    (hrefused : t.Refused w₀) : (bookkeeping A).Inv u ∧ (bookkeeping A).Guar i t u := by
  obtain ⟨r, hh⟩ := hc.history
  obtain ⟨w, hwt, hfixed⟩ := hw
  have hinv : (bookkeeping A).Inv t := hc.inv.2.2
  have hdata : w.reversalData = (reversalInput w₀.id w₀.walletId w₀.amount debitId).data := by
    rw [Withdrawal.reversalData_congr hfixed, Withdrawal.reversalData, hdebit]
    rfl
  have hbank : w.fixed.destinationType = .bank := by
    rw [hfixed]
    exact hd
  have he : t.db.Effect u.db := by
    rw [hc.db, ← hdata]
    exact .reversal w hwt hbank stamp
  have hwithdrawals : u.db.withdrawals = t.db.withdrawals := by
    rw [hc.db]
    rfl
  refine grant hinv hc.unique he hh rfl (fun x hx => .inl ⟨x, hwithdrawals ▸ hx, rfl⟩) ?_
    (fun x hx id hid => .inl ⟨x, hwithdrawals ▸ hx, rfl, hid⟩) ?_
  · intro x hx x' hx' hid
    rw [hinv.1.withdrawal_ext (hwithdrawals ▸ hx') hx hid]
    exact .inl rfl
  · intro x hx _
    rw [hc.db] at hx
    rcases List.mem_append.mp hx with hold | hnew
    · exact .inl hold
    · rw [List.mem_singleton.mp hnew]
      obtain ⟨ch, hf, ha⟩ := hc.taken
      refine .inr ⟨w₀.id, rfl, hwatched, ⟨q, ch, hf, hc.opened, ha⟩, fun y hy hid => ?_⟩
      have hwid : w.fixed.id = w₀.fixed.id := by rw [hfixed]
      have hyw : y = w := hinv.1.withdrawal_ext (hwithdrawals ▸ hy) hwt (hid.trans hwid.symm)
      exact hrefused.mono (fun e he => by rw [hh]; exact .tail _ he) (hyw ▸ hfixed)

/-! ### The steps of the workers -/

/-- An update of a withdrawal that is watched. -/
theorem wp_updateWithdrawal {id : String} {data : UpdateWithdrawalProviderData}
    {Q : Withdrawal → World → Prop} (hdebit : data.debitTransactionId = none)
    (hcredit : data.creditTransactionId = none)
    (hwatched : ∀ t, ((bookkeeping A).discipline P config).Runs s t → t.Watched i id)
    (htransferId : ∀ t, ((bookkeeping A).discipline P config).Runs s t → ∀ transferId,
      data.providerTransferId = some (some transferId) → ∀ w ∈ t.db.withdrawals, w.id = id →
        w.destinationType = .bank ∧ t.Accepted w transferId)
    (hQ : ∀ w u, Q w u) :
    ((bookkeeping A).discipline P config).wp q i (WithdrawalRepository.update id data) Q
      (fun _ _ => True) s :=
  wp_write (fun _ _ => trivial) (fun _ => rfl)
    (fun t _ ht hw => grant_updateWithdrawal hw hdebit hcredit (hwatched t ht) (htransferId t ht))
    (fun _ _ _ _ _ _ _ => hQ _ _) fun _ _ _ _ _ => trivial

/-- A run keeps what is known of a withdrawal that has been refused. -/
theorem refused_of_runs (h : s.Refused w₀)
    (hr : ((bookkeeping A).discipline P config).Runs s t) : t.Refused w₀ := by
  obtain ⟨es, hes⟩ := history_of_runs hr
  exact h.mono (fun e he => by rw [hes]; exact List.mem_append_right _ he) rfl

theorem fixed_of_runs (hs : ((bookkeeping A).discipline P config).Inv s) (hw : ∃ w ∈ s.db.withdrawals, w.fixed = w₀.fixed)
    (hr : ((bookkeeping A).discipline P config).Runs s t) :
    ∃ w ∈ t.db.withdrawals, w.fixed = w₀.fixed := by
  obtain ⟨w, hws, hfixed⟩ := hw
  obtain ⟨w', hwt, hfixed'⟩ := (tracked_of_runs hr hs.2.1).fixed w hws
  exact ⟨w', hwt, hfixed'.trans hfixed⟩

theorem reverseAndFail_keepsBooks (hs : ((bookkeeping A).discipline P config).Inv s)
    (hw : ∃ w ∈ s.db.withdrawals, w.fixed = w₀.fixed) (hd : w₀.destinationType = .bank)
    (hdebit : w₀.debitTransactionId = some debitId)
    (hwatched : ∀ t, ((bookkeeping A).discipline P config).Runs s t → t.Watched i w₀.id)
    (hrefused : s.Refused w₀) :
    KeepsBooks P config A q i (reverseAndFail w₀.id w₀.walletId w₀.amount debitId) s := by
  refine RelyGuarantee.wp_bind (WalletLedgerService.wp_postReversalCredit (.any fun _ _ => trivial)
    (fun t u stamp _ hst hc _ _ => grant_reversal hc (fixed_of_runs hs hw hst) hd hdebit
      (hwatched t hst) (refused_of_runs hrefused hst)) fun r u hback => ?_)
  obtain ⟨t, hst, htu, -, -⟩ := hback
  exact RelyGuarantee.wp_bind (wp_updateWithdrawal rfl rfl
    (fun v huv => hwatched v ((hst.trans htu).trans huv)) (fun _ _ _ hnone => by cases hnone)
    fun _ _ => trivial)

/-- A withdrawal that a worker has read, seen from a later moment. -/
theorem exists_debit (hs : s.db.Books) (hw : w₀ ∈ s.db.withdrawals) :
    ∃ debitId, w₀.debitTransactionId = some debitId := by
  obtain ⟨r, -, hid, -⟩ := (hs.withdrawal w₀ hw).debit
  exact ⟨r.id, hid⟩

/-- A request to the provider is about a withdrawal that there is. -/
theorem wp_initiateBankTransfer {Q : InitiateBankTransferResult → World → Prop}
    (hs : ((bookkeeping A).discipline P config).Inv s)
    (hw : ∃ w ∈ s.db.withdrawals, w.fixed = w₀.fixed) (hd : w₀.destinationType = .bank)
    (hQ : ∀ r u, ((bookkeeping A).discipline P config).Runs s u →
      (∃ e ∈ u.history, e.reply = some (bankTransferParams w₀, r)) → Q r u) :
    ((bookkeeping A).discipline P config).wp q i
      (perform (.initiateBankTransfer (bankTransferParams w₀))) Q (fun _ _ => True) s := by
  refine wp_perform (fun t _ w hw => by cases hw) fun t r u ho => ?_
  obtain ⟨ch, -, he⟩ := id ho.exec
  obtain ⟨took, hh⟩ := exec_history he
  have hdb : u.db = t.db := exec_db_of_provider (.inl ⟨_, rfl⟩) he
  obtain ⟨w, hwt, hfixed⟩ := fixed_of_runs hs hw ho.runs
  have hinv : (bookkeeping A).Inv t := ho.policy
  have hrec : u.Recorded := by
    refine hinv.2.2.of_db_eq hdb (fun e he' => by rw [hh]; exact .tail _ he') fun e he' => ?_
    rw [hh] at he'
    rcases List.mem_cons.mp he' with rfl | hold
    · refine .inr fun params hp => ⟨w, hwt, ?_, ?_⟩
      · show w.fixed.destinationType = .bank
        rw [hfixed]
        exact hd
      · rw [bankTransferParams_congr hfixed]
        exact (Option.some.inj hp).symm
    · exact .inl hold
  have hg := ho.step (lockGuarded_of_journal_eq (by rw [hdb]))
    ⟨⟨hdb ▸ hinv.1, hdb ▸ hinv.2.1, hrec⟩, Moved.of_db_eq A hdb hinv.1⟩
  refine ⟨hg.1, hg.2, ?_⟩
  cases r with
  | error e => trivial
  | ok r =>
      obtain ⟨_, hmem⟩ := exec_mem_history he
      exact hQ r u (ho.runs_after hg) ⟨_, hmem, rfl⟩

namespace WithdrawalPayoutService

theorem handleResult_keepsBooks {r : InitiateBankTransferResult}
    (hs : ((bookkeeping A).discipline P config).Inv s)
    (hw : ∃ w ∈ s.db.withdrawals, w.fixed = w₀.fixed) (hd : w₀.destinationType = .bank)
    (hdebit : w₀.debitTransactionId = some debitId)
    (hwatched : ∀ t, ((bookkeeping A).discipline P config).Runs s t → t.Watched i w₀.id)
    (hreply : ∃ e ∈ s.history, e.reply = some (bankTransferParams w₀, r)) :
    KeepsBooks P config A q i (handleResult w₀ r) s := by
  obtain ⟨e, he, hreply⟩ := hreply
  unfold handleResult
  split
  · rename_i hfailed
    rw [hdebit]
    exact reverseAndFail_keepsBooks hs hw hd hdebit hwatched (.inl ⟨e, he, r, hreply, hfailed⟩)
  · rename_i hfailed
    refine RelyGuarantee.wp_bind (wp_updateWithdrawal rfl rfl hwatched ?_ fun _ u => ?_)
    · -- The transfer id comes from the answer.
      intro t hst transferId hid w hwt hwid
      obtain ⟨w', hwt', hfixed⟩ := fixed_of_runs hs hw hst
      obtain ⟨es, hes⟩ := history_of_runs hst
      have hid' : w'.fixed.id = w₀.fixed.id := by rw [hfixed]
      have hww' : w = w' := (inv_of_runs hst hs).2.1.withdrawal_ext hwt hwt' (hwid.trans hid'.symm)
      have hfixed' : w.fixed = w₀.fixed := hww' ▸ hfixed
      refine ⟨?_, e, by rw [hes]; exact List.mem_append_right _ he, r, ?_, hfailed,
        Option.some.inj hid⟩
      · show w.fixed.destinationType = .bank
        rw [hfixed']
        exact hd
      · rw [bankTransferParams_congr hfixed']
        exact hreply
    · show KeepsBooks P config A q i (if _ then _ else _) u
      split
      · trivial
      · exact queueAdd_keepsBooks fun _ => trivial

theorem processPayout_keepsBooks {withdrawalId : String} :
    KeepsBooks P config A q i (processPayout withdrawalId) s := by
  refine RelyGuarantee.wp_bind (wp_select (fun _ _ => trivial) fun t u ho => ?_)
  generalize hfound : Query.run _ t.db = found at ho ⊢
  cases found with
  | none => trivial
  | some w₀ =>
      obtain ⟨hw, hid⟩ := find?_withdrawal_id hfound
      show KeepsBooks P config A q i (if w₀.status.terminal then _ else if _ then _ else _) u
      split
      · trivial
      · rename_i hopen
        split
        · trivial
        · rename_i hbank
          have hu := ho.inv_quiet rfl
          have hwu : ∃ w ∈ u.db.withdrawals, w.fixed = w₀.fixed := by
            rw [ho.db_quiet rfl]
            exact ⟨w₀, hw, rfl⟩
          have hd : w₀.destinationType = .bank := not_not.mp hbank
          obtain ⟨debitId, hdebit⟩ := exists_debit ho.policy.2.1 hw
          have hwatched : ∀ v, ((bookkeeping A).discipline P config).Runs u v →
              v.Watched i w₀.id := by
            intro v hv
            rw [hid]
            exact watched_of_read ho hw hid (eq_false_of_ne_true hopen) hv
          refine RelyGuarantee.wp_bind (wp_initiateBankTransfer hu hwu hd
            fun r v hv hreply => ?_)
          exact handleResult_keepsBooks (inv_of_runs hv hu) (fixed_of_runs hu hwu hv) hd hdebit
            (fun x hx => hwatched x (hv.trans hx)) hreply

end WithdrawalPayoutService

namespace WithdrawalSettleService

theorem processSettle_keepsBooks {withdrawalId : String} :
    KeepsBooks P config A q i (processSettle withdrawalId) s := by
  refine RelyGuarantee.wp_bind (wp_select (fun _ _ => trivial) fun t u ho => ?_)
  generalize hfound : Query.run _ t.db = found at ho ⊢
  cases found with
  | none => trivial
  | some w₀ =>
      obtain ⟨hw, hid⟩ := find?_withdrawal_id hfound
      show KeepsBooks P config A q i (if w₀.status.terminal then _ else _) u
      split
      · trivial
      · rename_i hopen
        split
        · trivial
        · rename_i providerTransferId hproviderId
          split
          · trivial
          · have hu := ho.inv_quiet rfl
            have hwu : ∃ w ∈ u.db.withdrawals, w.fixed = w₀.fixed := by
              rw [ho.db_quiet rfl]
              exact ⟨w₀, hw, rfl⟩
            obtain ⟨hd, hacc⟩ := ho.policy.2.2.transferId w₀ hw _ hproviderId
            obtain ⟨debitId, hdebit⟩ := exists_debit ho.policy.2.1 hw
            have hwatched : ∀ v, ((bookkeeping A).discipline P config).Runs u v →
                v.Watched i w₀.id := by
              intro v hv
              rw [hid]
              exact watched_of_read ho hw hid (eq_false_of_ne_true hopen) hv
            refine RelyGuarantee.wp_bind (wp_quiet rfl (fun _ => nofun) fun t' r v ho' => ?_)
            cases r with
            | error e => trivial
            | ok status =>
                have hv := ho'.runs_quiet rfl
                obtain ⟨ch, -, he⟩ := ho'.exec
                obtain ⟨took, hmem⟩ := exec_mem_history he
                show KeepsBooks P config A q i (handleStatus w₀ status.status) v
                unfold handleStatus
                split
                · exact RelyGuarantee.wp_bind (wp_updateWithdrawal rfl rfl
                    (fun x hx => hwatched x (hv.trans hx)) (fun _ _ _ hnone => by cases hnone)
                    fun _ _ => trivial)
                · rename_i hfailed
                  split
                  · have hrefused : v.Refused w₀ := by
                      obtain ⟨es, hes⟩ := history_of_runs ((ho.runs_self rfl).trans hv)
                      refine .inr ⟨_, hacc.mono (fun e he => ?_) rfl, _, hmem, status, rfl,
                        hfailed⟩
                      rw [hes]
                      exact List.mem_append_right _ he
                    rw [hdebit]
                    exact reverseAndFail_keepsBooks (ho'.inv_quiet rfl) (fixed_of_runs hu hwu hv) hd
                      hdebit (fun x hx => hwatched x (hv.trans hx)) hrefused
                  · trivial
                · trivial
                · trivial

end WithdrawalSettleService

end WalletApi
