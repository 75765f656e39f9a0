import WalletApi.Concurrency.Sparing
import WalletApi.Runs.Commits

/-!
In which order a request for a withdrawal asks.

The request looks its key up, begins a transaction, looks the key up again, and
commits; if the second lookup has found the key, nothing is written before the
commit. Having committed a withdrawal to a bank, the request goes on to enqueue the
payout, and does nothing else before. All this is read off the exchanges of the
request alone.
-/

namespace WalletApi

open Concurrency ReadCommitted Machine WalletTransactionRepository

variable {P : Platform} {config : Config} {A : Assumptions (walletApi P config)} {q : Call}
  {i : ℕ} {actor : JwtPayloadUser} {header : Option String} {dto : CreateWithdrawalDto}
  {userId key : String} {tr : Trace} {α β : Type} {c : Cmd} {job : Job}
  {S : Withdrawal → Prop}

/-! ### What has been asked before a command -/

/-- The lookup of a key. -/
abbrev Cmd.lookup (client : Client) (userId key : String) : Cmd :=
  .select client (.withdrawalByUserAndIdempotencyKey userId key)

/-- The command looks a key up. -/
def Cmd.looks : Cmd → Bool
  | .select _ (.withdrawalByUserAndIdempotencyKey ..) => true
  | _ => false

/-- The withdrawal that the command makes. -/
def Cmd.makes : Cmd → Option Withdrawal
  | .write .tx (.createWithdrawal row) => some row
  | _ => none

/-- A withdrawal to a bank has just been committed, and its payout is due. -/
def Due (tr : Trace) (job : Job) : Prop :=
  ∃ (tr' : Trace) (row : Withdrawal), tr = ⟨.commit, .ok ()⟩ :: tr' ∧
    row.destinationType = .bank ∧ job = payoutJob row.id ∧
    ∃ x ∈ tr', Cmd.makes x.cmd = some row

/-- The second lookup has just found the key. -/
def FoundAgain (userId key : String) (tr : Trace) : Prop :=
  ∃ (w : Withdrawal) (older : Trace), tr = ⟨.lookup .tx userId key, .ok (some w)⟩ :: older

/-- What a request for a withdrawal with the key has just asked when it issues a command. -/
structure InOrder (userId key : String) (tr : Trace) (c : Cmd) : Prop where
  first : ∀ u k, c = .lookup .pool u k → u = userId ∧ k = key
  begins : c = .begin → ∃ older : Trace, tr = ⟨.lookup .pool userId key, .ok none⟩ :: older
  again : ∀ u k, c = .lookup .tx u k → u = userId ∧ k = key ∧
    ∃ older : Trace, tr = ⟨.begin, .ok ()⟩ :: older
  commits : c = .commit → (∃ k, k ∈ keysWritten tr) ∨ FoundAgain userId key tr
  due : ∀ job, Due tr job → c = .queueAdd job

/-- A command that the order does not concern. -/
structure Cmd.Plain (c : Cmd) : Prop where
  bounds : c.bounds = false
  looks : c.looks = false
  makes : c.makes = none

theorem plain_of_inner (c : Cmd) (hc : c.inner = true) : c.Plain := by
  obtain ⟨hcommon, hbounds⟩ := Bool.and_eq_true_iff.mp hc
  refine ⟨by simpa using hbounds, ?_, ?_⟩
  · unfold Cmd.looks
    split
    · cases hcommon
    · rfl
  · unfold Cmd.makes
    split
    · cases hcommon
    · rfl

theorem ne_lookup (hc : c.looks = false) {client : Client} {u k : String} :
    c ≠ .lookup client u k := by
  rintro rfl
  cases hc

/-- A command that looks nothing up. -/
theorem InOrder.bound
    (hbegins : c = .begin → ∃ older : Trace, tr = ⟨.lookup .pool userId key, .ok none⟩ :: older)
    (hcommits : c = .commit → (∃ k, k ∈ keysWritten tr) ∨ FoundAgain userId key tr)
    (hlooks : c.looks = false) (h : ∀ job, ¬Due tr job) : InOrder userId key tr c where
  first _ _ heq := absurd heq (ne_lookup hlooks)
  begins := hbegins
  again _ _ heq := absurd heq (ne_lookup hlooks)
  commits := hcommits
  due job hdue := absurd hdue (h job)

theorem InOrder.other (hbounds : c.bounds = false) (hlooks : c.looks = false)
    (h : ∀ job, ¬Due tr job) : InOrder userId key tr c := by
  refine .bound ?_ ?_ hlooks h
  · rintro rfl
    cases hbounds
  · rintro rfl
    cases hbounds

/-! ### Traces -/

theorem not_due_cons {x : Exchange signature} (h : Cmd.isCommit x.cmd = false) (job : Job) :
    ¬Due (x :: tr) job := by
  rintro ⟨tr', row, heq, -⟩
  obtain ⟨rfl, -⟩ := List.cons.inj heq
  cases h

theorem not_due_error {e : Err} (job : Job) : ¬Due (⟨c, .error e⟩ :: tr) job := by
  rintro ⟨tr', row, heq, -⟩
  obtain ⟨hx, -⟩ := List.cons.inj heq
  cases hx

theorem not_due_append {new : Trace} (h : ∀ job, ¬Due tr job) (hnew : ∀ x ∈ new, x.cmd.Plain) :
    ∀ job, ¬Due (new ++ tr) job := by
  cases new with
  | nil => exact h
  | cons x new =>
      refine not_due_cons (Bool.eq_false_iff.mpr fun hcommit => ?_)
      have hbounds := (hnew x (.head _)).bounds
      rw [Cmd.eq_of_isCommit hcommit] at hbounds
      cases hbounds

/-- All withdrawals that have been written are of a kind. -/
abbrev Writes (S : Withdrawal → Prop) (tr : Trace) : Prop := Yields Cmd.makes S tr

/-- What is due was written. -/
theorem due_of_writes (h : Writes S tr) (hdue : Due tr job) :
    ∃ row : Withdrawal, S row ∧ row.destinationType = .bank ∧ job = payoutJob row.id := by
  obtain ⟨tr', row, rfl, hbank, rfl, x, hx, hcmd⟩ := hdue
  exact ⟨row, h x (.tail _ hx) row hcmd, hbank, rfl⟩

theorem not_due_of_writes (h : Writes (fun _ => False) tr) (job : Job) : ¬Due tr job := by
  intro hdue
  obtain ⟨row, hrow, -⟩ := due_of_writes h hdue
  exact hrow

theorem exists_keysWritten_cons {x : Exchange signature} (hx : x.cmd.bounds = false)
    (h : ∃ k, k ∈ keysWritten tr) : ∃ k, k ∈ keysWritten (x :: tr) := by
  obtain ⟨k, hk⟩ := h
  refine ⟨k, ?_⟩
  rw [keysWritten, if_neg (by simp [hx])]
  exact List.mem_append_right _ hk

/-! ### Programs -/

/-- The program asks in order, and does not fail while a payout is due. -/
def Asks (A : Assumptions (walletApi P config)) (q : Call) (i : ℕ) (userId key : String)
    (p : Program α) (Q : α → Trace → Prop) (tr : Trace) : Prop :=
  (Machine.solo A i (InOrder userId key)).wp q i p Q (fun _ tr => ∀ job, ¬Due tr job) tr

namespace Asks

variable {Q Q' : α → Trace → Prop} {p : Program α}

theorem ret {a : α} (h : Q a tr) : Asks A q i userId key (.ret a) Q tr := h

theorem fail {e : Err} (h : ∀ job, ¬Due tr job) : Asks A q i userId key (.fail e) Q tr := h

theorem bind {f : β → Program α} {p : Program β}
    (h : Asks A q i userId key p (fun b tr => Asks A q i userId key (f b) Q tr) tr) :
    Asks A q i userId key (p >>= f) Q tr :=
  RelyGuarantee.wp_bind h

theorem mono (hQ : ∀ a tr, Q a tr → Q' a tr) (h : Asks A q i userId key p Q tr) :
    Asks A q i userId key p Q' tr :=
  RelyGuarantee.wp_mono hQ (fun _ _ h => h) p h

/-- A command, and what it may answer. -/
theorem command {Q : c.Resp → Trace → Prop} (hd : InOrder userId key tr c)
    (h : ∀ ch s t a, World.perform P config i c ch s = some (.ok a, t) → Q a (⟨c, .ok a⟩ :: tr)) :
    Asks A q i userId key (perform c) Q tr := by
  refine Solo.wp_perform hd fun ch s r t _ he => ?_
  cases r with
  | error e => exact fun job => not_due_error job
  | ok a =>
      obtain ⟨s', hp, -⟩ := World.exec_eq_ok he
      exact h ch s s' a hp

/-- A write in the transaction. -/
theorem write {w : Write} {Q : w.Result → Trace → Prop} (hdue : ∀ job, ¬Due tr job)
    (h : ∀ d row, w.result d = some row → Q row (⟨.write .tx w, .ok row⟩ :: tr)) :
    Asks A q i userId key (WalletApi.write .tx w) Q tr := by
  refine command (.other rfl rfl hdue) fun ch s t a hp => ?_
  rcases World.write_eq_some hp with ⟨-, code, -, hr⟩ | ⟨row, store, -, hrow, -, hr, -⟩
  · cases hr
  · cases hr
    exact h _ _ hrow

/-- A part of the program that the order does not concern. -/
theorem plain (hp : p.Within Cmd.Plain) (hdue : ∀ job, ¬Due tr job)
    (hQ : ∀ a new, (∀ x ∈ new, x.cmd.Plain) → (∀ job, ¬Due (new ++ tr) job) → Q a (new ++ tr)) :
    Asks A q i userId key p Q tr := by
  refine Solo.wp_throughout hp (fun c new hc hnew =>
    .other hc.bounds hc.looks (not_due_append hdue hnew)) (fun a new hreturns => ?_)
    fun e new hfails => ?_
  · have hnew : ∀ x ∈ new.reverse, x.cmd.Plain := fun x hx =>
      hp.of_reaches hreturns x (List.mem_reverse.mp hx)
    exact hQ a _ hnew (not_due_append hdue hnew)
  · exact not_due_append hdue fun x hx => hp.of_reaches hfails x (List.mem_reverse.mp hx)

/-- Before a withdrawal has been written. -/
theorem before (hp : p.Within Cmd.Plain) (h : Writes (fun _ => False) tr)
    (hQ : ∀ a tr, Writes (fun _ => False) tr → Q a tr) : Asks A q i userId key p Q tr :=
  plain hp (not_due_of_writes h) fun a _ hnew _ => hQ a _ (h.append fun x hx => (hnew x hx).makes)

theorem after {f : β → Program α} {p : Program β} (hp : p.Within Cmd.Plain)
    (h : Writes (fun _ => False) tr)
    (hf : ∀ b tr, Writes (fun _ => False) tr → Asks A q i userId key (f b) Q tr) :
    Asks A q i userId key (p >>= f) Q tr :=
  bind (before hp h hf)

/-- A row of the journal is inserted. -/
theorem insert {data : CreateWalletTransactionData} {Q : WalletTransaction → Trace → Prop}
    (hdue : ∀ job, ¬Due tr job) (h : Writes S tr)
    (hQ : ∀ r tr, (∀ job, ¬Due tr job) → Writes S tr → (∃ k, k ∈ keysWritten tr) → Q r tr) :
    Asks A q i userId key (WalletTransactionRepository.insert data) Q tr := by
  have hdefaults : Prog.Within Cmd.Plain (perform .defaults : Program (String × ℕ)) :=
    within_inner plain_of_inner rfl
  refine bind (plain hdefaults hdue fun stamp new hnew hdue' => ?_)
  refine write hdue' fun d row _ => ?_
  exact hQ row _ (not_due_cons rfl) ((h.append fun x hx => (hnew x hx).makes).pass rfl) ⟨data.idempotencyKey, .head _⟩

/-- A transaction, whose commit leads to `Q`. -/
theorem transaction {older : Trace}
    (h : Asks A q i userId key p (fun a tr => Asks A q i userId key (perform .commit)
      (fun _ => Q a) tr) (⟨.begin, .ok ()⟩ :: ⟨.lookup .pool userId key, .ok none⟩ :: older)) :
    Asks A q i userId key (WalletApi.transaction p) Q
      (⟨.lookup .pool userId key, .ok none⟩ :: older) := by
  have hbegin : InOrder userId key (⟨.lookup .pool userId key, .ok none⟩ :: older) .begin :=
    .bound (fun _ => ⟨older, rfl⟩) nofun rfl (not_due_cons rfl)
  refine RelyGuarantee.wp_tryCatch (RelyGuarantee.wp_mono (fun _ _ hQ => hQ) (fun e tr hdue => ?_) _
    (bind (command hbegin fun _ _ _ _ _ => bind ?_)))
  · exact bind (command (.bound nofun nofun rfl hdue) fun _ _ _ _ _ => not_due_cons rfl)
  · exact mono (fun a tr hcommit => bind hcommit) h

/-- The commit of a transaction, if there was something to commit. -/
theorem commit {Q : Unit → Trace → Prop} (hdue : ∀ job, ¬Due tr job)
    (hwhy : (∃ k, k ∈ keysWritten tr) ∨ FoundAgain userId key tr)
    (h : Q () (⟨.commit, .ok ()⟩ :: tr)) : Asks A q i userId key (perform .commit) Q tr :=
  command (.bound nofun (fun _ => hwhy) rfl hdue) fun _ _ _ _ _ => h

end Asks

/-! ### The request -/

namespace WithdrawalRepository

theorem asks_replay {w : Withdrawal} {hash : String} {Q : ExecuteWithdrawalResult → Trace → Prop}
    (hdue : ∀ job, ¬Due tr job) (h : Q ⟨w, false⟩ tr) :
    Asks A q i userId key (replay w hash) Q tr := by
  refine .bind ?_
  show Asks A q i userId key (if _ then _ else _) _ tr
  split
  · exact .fail hdue
  · exact .ret h

theorem asks_rethrowWalletMissing {p : Program α} {Q : α → Trace → Prop}
    (h : Asks A q i userId key p Q tr) :
    Asks A q i userId key (rethrowWalletMissing p) Q tr := by
  refine RelyGuarantee.wp_tryCatch (RelyGuarantee.wp_mono (fun _ _ hQ => hQ) (fun e tr hdue => ?_) _ h)
  show Asks A q i userId key (if _ then _ else _) _ tr
  split
  · exact .fail hdue
  · exact .fail hdue

/-- The second lookup. -/
theorem inOrder_again {older : Trace} :
    InOrder userId key (⟨.begin, .ok ()⟩ :: older) (.lookup .tx userId key) where
  first u k heq := by cases heq
  begins heq := by cases heq
  again u k heq := by
    cases heq
    exact ⟨rfl, rfl, older, rfl⟩
  commits heq := by cases heq
  due job hdue := absurd hdue (not_due_cons rfl job)

/-- The first lookup. -/
theorem inOrder_first (hdue : ∀ job, ¬Due tr job) :
    InOrder userId key tr (.lookup .pool userId key) where
  first u k heq := by
    cases heq
    exact ⟨rfl, rfl⟩
  begins heq := by cases heq
  again u k heq := by cases heq
  commits heq := by cases heq
  due job h := absurd h (hdue job)

theorem asks_p2pTransaction {data : ExecuteP2pWithdrawalData} (htr : Writes (fun _ => False) tr) :
    Asks A q i data.userId data.idempotencyKey (p2pTransaction data)
      (fun _ tr => (∀ job, ¬Due tr job) ∧ Writes (fun row => row.destinationType ≠ .bank) tr ∧
        ((∃ k, k ∈ keysWritten tr) ∨ FoundAgain data.userId data.idempotencyKey tr))
      (⟨.begin, .ok ()⟩ :: tr) := by
  refine .bind (.command inOrder_again fun _ _ _ (again : Option Withdrawal) _ => ?_)
  have hlooked : Writes (fun _ => False)
      (⟨.lookup .tx data.userId data.idempotencyKey, .ok again⟩ :: ⟨.begin, .ok ()⟩ :: tr) :=
    (htr.pass rfl).pass rfl
  cases again with
  | some w =>
      exact .ret ⟨not_due_of_writes hlooked, hlooked.mono fun _ h => h.elim, .inr ⟨w, _, rfl⟩⟩
  | none =>
      refine .after (within_lockWalletRows plain_of_inner) hlooked fun _ tr htr => ?_
      refine .after (within_inner plain_of_inner rfl) htr fun _ tr htr => ?_
      refine .after within_throwIf htr fun _ tr htr => ?_
      refine .after (within_inner plain_of_inner rfl) htr fun stamp tr htr => ?_
      refine .bind (.write (not_due_of_writes htr) fun d w _ => ?_)
      refine .bind (.insert (S := fun row => row.destinationType ≠ .bank) (not_due_cons rfl) ?_
        fun debit tr hdue hkind _ => ?_)
      · refine (htr.mono fun _ h => h.elim).cons fun row hrow => ?_
        rw [← Option.some.inj hrow]
        exact fun hkind => by cases hkind
      refine .bind (.insert hdue hkind fun credit tr hdue hkind hkeys => ?_)
      refine .bind (.write hdue fun d updated _ => ?_)
      exact .ret ⟨not_due_cons rfl, hkind.pass rfl, .inl (exists_keysWritten_cons rfl hkeys)⟩

theorem asks_executeP2p {data : ExecuteP2pWithdrawalData} (huser : data.userId = userId)
    (hkey : data.idempotencyKey = key) (htr : Writes (fun _ => False) tr) :
    Asks A q i userId key (executeP2p data) (fun _ tr => ∀ job, ¬Due tr job) tr := by
  subst huser hkey
  refine .bind (.command (inOrder_first (not_due_of_writes htr)) fun _ _ _ (existing : Option Withdrawal) _ => ?_)
  have hlooked : Writes (fun _ => False)
      (⟨.lookup .pool data.userId data.idempotencyKey, .ok existing⟩ :: tr) := htr.pass rfl
  cases existing with
  | some w => exact asks_replay (not_due_of_writes hlooked) (not_due_of_writes hlooked)
  | none =>
      refine asks_rethrowWalletMissing (.transaction ((asks_p2pTransaction hlooked).mono ?_))
      rintro result tr ⟨hdue, hkind, hwhy⟩
      refine .commit hdue hwhy fun job hjob => ?_
      obtain ⟨row, hrow, hbank, -⟩ := due_of_writes (hkind.pass rfl) hjob
      exact hrow hbank

theorem asks_bankTransaction {data : ExecuteBankWithdrawalData} (htr : Writes (fun _ => False) tr) :
    Asks A q i data.userId data.idempotencyKey (bankTransaction data)
      (fun result tr => (∀ job, ¬Due tr job) ∧
        (result.created = true ∧ Writes (fun row => row.id = result.withdrawal.id) tr ∧
            (∃ k, k ∈ keysWritten tr) ∨
          Writes (fun _ => False) tr ∧ FoundAgain data.userId data.idempotencyKey tr))
      (⟨.begin, .ok ()⟩ :: tr) := by
  refine .bind (.command inOrder_again fun _ _ _ (again : Option Withdrawal) _ => ?_)
  have hlooked : Writes (fun _ => False)
      (⟨.lookup .tx data.userId data.idempotencyKey, .ok again⟩ :: ⟨.begin, .ok ()⟩ :: tr) :=
    (htr.pass rfl).pass rfl
  cases again with
  | some w => exact .ret ⟨not_due_of_writes hlooked, .inr ⟨hlooked, w, _, rfl⟩⟩
  | none =>
      refine .after (within_lockWalletRow plain_of_inner) hlooked fun _ tr htr => ?_
      refine .after (within_inner plain_of_inner rfl) htr fun _ tr htr => ?_
      refine .after within_throwIf htr fun _ tr htr => ?_
      refine .after (within_inner plain_of_inner rfl) htr fun stamp tr htr => ?_
      refine .bind (.write (not_due_of_writes htr) fun d (w : Withdrawal) hw => ?_)
      refine .bind (.insert (S := fun row => row.id = w.id) (not_due_cons rfl) ?_
        fun debit tr hdue hid hkeys => ?_)
      · refine (htr.mono fun _ h => h.elim).cons fun row hrow => ?_
        rw [← Option.some.inj hrow, ← Option.some.inj hw]
      refine .bind (.write hdue fun d (updated : Withdrawal) hupdated => ?_)
      obtain ⟨found, hfound, rfl⟩ := Option.map_eq_some_iff.mp hupdated
      have hfind := List.find?_some hfound
      have hsame : found.id = w.id := of_decide_eq_true hfind
      refine .ret ⟨not_due_cons rfl, .inl ⟨rfl, ?_, exists_keysWritten_cons rfl hkeys⟩⟩
      exact (hid.mono fun row hrow => hrow.trans hsame.symm).pass rfl

theorem asks_executeBankAccept {data : ExecuteBankWithdrawalData} (huser : data.userId = userId)
    (hkey : data.idempotencyKey = key) (htr : Writes (fun _ => False) tr) :
    Asks A q i userId key (executeBankAccept data) (fun result tr => ∀ job, Due tr job →
      result.created = true ∧ job = payoutJob result.withdrawal.id) tr := by
  subst huser hkey
  refine .bind (.command (inOrder_first (not_due_of_writes htr)) fun _ _ _ (existing : Option Withdrawal) _ => ?_)
  have hlooked : Writes (fun _ => False)
      (⟨.lookup .pool data.userId data.idempotencyKey, .ok existing⟩ :: tr) := htr.pass rfl
  cases existing with
  | some w => exact asks_replay (not_due_of_writes hlooked) fun job hjob => absurd hjob ((not_due_of_writes hlooked) job)
  | none =>
      refine asks_rethrowWalletMissing (.transaction ((asks_bankTransaction hlooked).mono ?_))
      rintro result tr ⟨hdue, ⟨hcreated, hid, hkeys⟩ | ⟨hnone, hfound⟩⟩
      · refine .commit hdue (.inl hkeys) fun job hjob => ?_
        obtain ⟨row, hrow, -, rfl⟩ := due_of_writes (hid.pass rfl) hjob
        rw [hrow]
        exact ⟨hcreated, rfl⟩
      · refine .commit hdue (.inr hfound) fun job hjob => ?_
        exact absurd hjob (not_due_of_writes (hnone.pass rfl) job)

end WithdrawalRepository

namespace WithdrawalP2pService

theorem asks_create (htr : Writes (fun _ => False) tr) :
    Asks A q i actor.userId key (create P actor dto key) (fun _ tr => ∀ job, ¬Due tr job) tr := by
  refine .after within_requireNgn htr fun _ tr htr => ?_
  refine .after within_throwIf htr fun _ tr htr => ?_
  refine .after (within_inner plain_of_inner rfl) htr fun _ tr htr => ?_
  refine .after within_orThrow htr fun _ tr htr => ?_
  refine .after (within_inner plain_of_inner rfl) htr fun _ tr htr => ?_
  refine .after within_orThrow htr fun _ tr htr => ?_
  refine .after within_throwIf htr fun _ tr htr => ?_
  refine .after (within_inner plain_of_inner rfl) htr fun _ tr htr => ?_
  refine .after within_orThrow htr fun _ tr htr => ?_
  refine .after within_throwIf htr fun _ tr htr => ?_
  refine .bind (.mono (fun _ _ hdue => .ret hdue) ?_)
  exact WithdrawalRepository.asks_executeP2p rfl rfl htr

end WithdrawalP2pService

namespace WithdrawalBankService

theorem asks_enqueue {result : WithdrawalRepository.ExecuteWithdrawalResult}
    (h : ∀ job, Due tr job → result.created = true ∧ job = payoutJob result.withdrawal.id) :
    Asks A q i userId key (enqueue result) (fun _ tr => ∀ job, ¬Due tr job) tr := by
  show Asks A q i userId key (if _ then _ else _) _ tr
  split
  · refine .bind (.command ?_ fun _ _ _ _ _ => .ret (not_due_cons rfl))
    refine ⟨?_, ?_, ?_, ?_, fun job hjob => by rw [(h job hjob).2]⟩
    · intro u k heq
      cases heq
    · intro heq
      cases heq
    · intro u k heq
      cases heq
    · intro heq
      cases heq
  · rename_i hold
    exact .ret fun job hjob => hold (h job hjob).1

theorem asks_create (htr : Writes (fun _ => False) tr) :
    Asks A q i actor.userId key (create P actor dto key) (fun _ tr => ∀ job, ¬Due tr job) tr := by
  refine .after within_requireNgn htr fun _ tr htr => ?_
  -- The check is not to be evaluated.
  generalize (blank dto.bankCode || blank dto.accountNumber || blank dto.accountName) = missing
  refine .after within_throwIf htr fun _ tr htr => ?_
  refine .after (within_inner plain_of_inner rfl) htr fun _ tr htr => ?_
  refine .after within_orThrow htr fun _ tr htr => ?_
  refine .after within_throwIf htr fun _ tr htr => ?_
  refine .after (within_inner plain_of_inner rfl) htr fun _ tr htr => ?_
  refine .bind (.mono (fun _ _ h => asks_enqueue h) ?_)
  exact WithdrawalRepository.asks_executeBankAccept rfl rfl htr

end WithdrawalBankService

theorem asks_postWithdrawals (hkey : requireIdempotencyKey header = .ok key) :
    Asks A q i actor.userId key (program P config (.postWithdrawals actor header dto))
      (fun _ tr => ∀ job, ¬Due tr job) [] := by
  show Asks A q i actor.userId key
    ((ofExcept (requireIdempotencyKey header)).bind _ : Program Response) _ []
  rw [hkey]
  have hend {α : Type} {p : Program α} {f : α → Response} {tr : Trace}
      (h : Asks A q i actor.userId key p (fun _ tr => ∀ job, ¬Due tr job) tr) :
      Asks A q i actor.userId key (f <$> p) (fun _ tr => ∀ job, ¬Due tr job) tr :=
    .bind (f := fun a => .ret (f a)) h
  have hverify : (AuthService.verifyPin actor.userId dto.pin).Within Cmd.Plain :=
    AuthCredentialService.inner_verifyPinOrThrow plain_of_inner (fun _ => ⟨rfl, rfl, rfl⟩)
      fun _ _ _ => ⟨rfl, rfl, rfl⟩
  refine hend (.after hverify .nil fun _ tr htr => ?_)
  cases dto.destinationType with
  | wallet => exact WithdrawalP2pService.asks_create htr
  | bank => exact WithdrawalBankService.asks_create htr

/-! ### Runs -/

section Runs

variable {cfg cfg' : Machine.Config (walletApi P config)} {p : Program Response}

/-- A request for a withdrawal asks in order. -/
def AsksInOrder : Call → Trace → Cmd → Prop
  | .postWithdrawals actor header _, tr, c =>
      match requireIdempotencyKey header with
      | .ok key => InOrder actor.userId key tr c
      | .error _ => True
  | _, _, _ => True

/-- It has not ended while a payout is due. -/
def NoneDue : Call → Trace → Prop
  | .postWithdrawals .., tr => ∀ job, ¬Due tr job
  | _, _ => True

theorem asks_of_reachable (h : Reachable A World.initial cfg) :
    Followed (recording P config) A AsksInOrder (fun call _ => NoneDue call)
      (fun call _ => NoneDue call) cfg := by
  refine .of_reachable rfl (fun {call i} _ => ?_) h
  by_cases hpost : ∃ actor header dto, call = .postWithdrawals actor header dto
  · obtain ⟨actor, header, dto, rfl⟩ := hpost
    cases hkey : requireIdempotencyKey header with
    | error e =>
        show RelyGuarantee.wp _ _ _ ((ofExcept (requireIdempotencyKey header)).bind _ :
          Program Response) _ _ []
        rw [hkey]
        exact (not_due_of_writes .nil : ∀ job, ¬Due [] job)
    | ok key =>
        have hordered : AsksInOrder (.postWithdrawals actor header dto) = InOrder actor.userId key := by
          funext tr c
          simp only [AsksInOrder, hkey]
        rw [hordered]
        exact asks_postWithdrawals hkey
  · have hordered : ∀ tr c, AsksInOrder call tr c := by
      intro tr c
      cases call with
      | postWithdrawals actor header dto => exact absurd ⟨actor, header, dto, rfl⟩ hpost
      | _ => trivial
    have hsettles : ∀ tr, NoneDue call tr := by
      intro tr
      cases call with
      | postWithdrawals actor header dto => exact absurd ⟨actor, header, dto, rfl⟩ hpost
      | _ => trivial
    exact Solo.wp_within (.all fun _ => trivial) (fun _ _ _ => hordered _ _)
      (fun _ _ _ => hsettles _) fun _ _ _ => hsettles _

/-- The next command of a request for a withdrawal. -/
theorem inOrder_of_thread (h : Reachable A World.initial cfg) {k : Except Err c.Resp → Program Response}
    (hth : cfg.threads i = some (.running (.postWithdrawals actor header dto) (.op c k)))
    (hkey : requireIdempotencyKey header = .ok key) :
    InOrder actor.userId key (own i (World.log cfg.state)) c := by
  have hordered : AsksInOrder (.postWithdrawals actor header dto) (own i (World.log cfg.state)) c :=
    (asks_of_reachable h).demand hth
  simp only [AsksInOrder, hkey] at hordered
  exact hordered

/-- When a payout is due, the request goes on to enqueue it. -/
theorem next_of_due (h : Reachable A World.initial cfg)
    (hth : cfg.threads i = some (.running (.postWithdrawals actor header dto) p))
    (hkey : requireIdempotencyKey header = .ok key)
    (hdue : Due (own i (World.log cfg.state)) job) : ∃ k, p = .op (.queueAdd job) k := by
  have hwp := (asks_of_reachable h).running hth
  cases p with
  | ret r => exact absurd hdue (hwp job)
  | fail e => exact absurd hdue (hwp job)
  | op c k =>
      obtain rfl := (inOrder_of_thread h hth hkey).due job hdue
      exact ⟨k, rfl⟩

/-- What an action leaves alone of the threads that it is not about. -/
structure Aside (cfg cfg' : Machine.Config (walletApi P config)) (j : ℕ) : Prop where
  threads : cfg'.threads j = cfg.threads j
  own : own j (World.log cfg'.state) = own j (World.log cfg.state)
  opened : (World.store cfg'.state).opened j = (World.store cfg.state).opened j

theorem aside_of_next {a : Action (walletApi P config)} {j : ℕ}
    (hn : Machine.next cfg a = some cfg') (hj : j ≠ a.thread) : Aside cfg cfg' j := by
  refine ⟨threads_of_next hn hj, ?_, ?_⟩
  · cases a with
    | spawn i call =>
        obtain ⟨-, rfl⟩ := next_spawn_iff.mp hn
        rfl
    | crash i =>
        obtain ⟨call, p, -, rfl⟩ := next_crash_iff.mp hn
        rfl
    | step i ch =>
        obtain ⟨call, c, k, r, t, -, he, rfl⟩ := next_step_iff.mp hn
        rw [Config.state_set, World.log_exec he]
        exact own_cons_of_ne (Ne.symm hj) _ _
  · cases a with
    | spawn i call =>
        obtain ⟨-, rfl⟩ := next_spawn_iff.mp hn
        rfl
    | crash i =>
        obtain ⟨call, p, -, rfl⟩ := next_crash_iff.mp hn
        have hstepped : World.Stepped P config i cfg.state (World.crash i cfg.state) := .inr rfl
        exact hstepped.store.owned.opened hj
    | step i ch =>
        obtain ⟨call, c, k, r, t, -, he, rfl⟩ := next_step_iff.mp hn
        exact (World.exec_store he).owned.opened hj

/-- What has happened stays on record. -/
theorem history_of_next {a : Action (walletApi P config)} (hn : Machine.next cfg a = some cfg') :
    ∃ es, World.history cfg'.state = es ++ World.history cfg.state := by
  cases a with
  | spawn i call =>
      obtain ⟨-, rfl⟩ := next_spawn_iff.mp hn
      exact ⟨[], rfl⟩
  | crash i =>
      obtain ⟨call, p, -, rfl⟩ := next_crash_iff.mp hn
      exact ⟨[], rfl⟩
  | step i ch =>
      obtain ⟨call, c, k, r, t, -, he, rfl⟩ := next_step_iff.mp hn
      obtain ⟨took, hh⟩ := World.exec_history he
      exact ⟨[⟨i, c, r, took⟩], hh⟩

/-- The action is the commit with which a request makes the withdrawal. -/
structure CommitsRow (cfg : Machine.Config (walletApi P config)) (i : ℕ) (row : Withdrawal) : Prop where
  thread : ∃ actor header dto k, requireIdempotencyKey header = .ok row.idempotencyKey ∧
    cfg.threads i = some (.running (.postWithdrawals actor header dto) (.op .commit k))
  buffer : ∃ ws, (World.store cfg.state).opened i = some ws ∧ .createWithdrawal row ∈ ws

/-- A withdrawal was there before, or it has just been committed. -/
theorem withdrawal_of_next (hA : ∀ call, A.admits call → Call.isApi call = true)
    (h : Reachable A World.initial cfg) {a : Action (walletApi P config)}
    (hn : Machine.next cfg a = some cfg') {w : Withdrawal} (hw : w ∈ cfg'.state.db.withdrawals) :
    (∃ w₀ ∈ cfg.state.db.withdrawals, w.core = w₀.core) ∨
      ∃ i ch row, a = .step i ch ∧ ch.fault ≠ .failed ∧ w.core = row.core ∧ CommitsRow cfg i row := by
  cases a with
  | spawn i call =>
      obtain ⟨-, rfl⟩ := next_spawn_iff.mp hn
      exact .inl ⟨w, hw, rfl⟩
  | crash i =>
      obtain ⟨call, p, -, rfl⟩ := next_crash_iff.mp hn
      exact .inl ⟨w, hw, rfl⟩
  | step i ch =>
      obtain ⟨call, c, k, r, t, hth, he, rfl⟩ := next_step_iff.mp hn
      rw [Config.state_set] at hw
      rcases World.exec_db he with hdb | ⟨data, rfl, hdb, -⟩ | ⟨rfl, ws, hopen, hdb⟩
      · exact .inl ⟨w, hdb ▸ hw, rfl⟩
      · rw [hdb] at hw
        rcases Write.withdrawal_of_apply hw with hold | rfl
        · exact .inl hold
        · have hfootprint : call.footprint (.write .pool (.createWithdrawal w)) :=
            footprint_of_thread hA h hth
          cases call <;> exact hfootprint.elim
      · rw [hdb] at hw
        rcases withdrawal_of_applyAll hw with hold | ⟨row, hrow, hcore⟩
        · exact .inl hold
        · by_cases hfault : ch.fault = .failed
          · have hfails : World.exec P config i .commit ch cfg.state =
                some (.error .network, World.record cfg.state ⟨i, .commit, .error .network, false⟩) :=
              if_pos ⟨rfl, hfault⟩
            cases he.symm.trans hfails
            rw [← hdb] at hw
            exact .inl ⟨w, hw, rfl⟩
          refine .inr ⟨i, ch, row, rfl, hfault, hcore, ?_, ws, hopen, hrow⟩
          obtain ⟨th, hth', hissues⟩ := (issues_of_reachable hA h).2 i ws hopen _ hrow
          cases hth.symm.trans hth'
          cases call with
          | postWithdrawals actor header dto => exact ⟨actor, header, dto, k, hissues.2.2.1, hth⟩
          | _ => exact hissues.elim

end Runs

end WalletApi
