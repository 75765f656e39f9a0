import WalletApi.Concurrency.Finishing
import WalletApi.Runs.Steps

/-!
A call of the API that is left alone, in calm weather.

No connection fails, and what is generated is new. A thread that is alone then
never waits: the locks and the index entries that are held are its own. What it
knows of the world is exact (`Lone`), and so there is one rule for each
statement, which says what the statement answers.
-/

namespace WalletApi

open Concurrency ReadCommitted Machine World

variable {P : Platform} {config : Config} {call : Call} {i n : ℕ} {o : Option (List Write)}
  {ws : List Write} {d : Db} {s t : World}

/-! ### Calm weather -/

/-- What a row with this id enters in the index of its primary key. -/
def idKeys (id : String) : List Key := [.withdrawalId id, .walletTransactionId id, .transferId id]

/-- The text has not been generated before, and a column can hold it. -/
def Cmd.Novel (c : Cmd) (text : String) (s : World) : Prop :=
  match c with
  | .defaults => isColumnText text = true ∧
      ∀ k ∈ idKeys text, k ∉ s.db.keys ∧ s.store.claims k = none
  | .randomUUID => isColumnText text = true ∧ ∀ userId : String,
      .transferFlutterwaveTxRef ("fund_" ++ sliceEight userId ++ "_" ++ withoutDashes text) ∉ s.db.keys
  | _ => True

variable (P config) in
/-- No connection fails, and what is generated is new. -/
def calmly : Assumptions (walletApi P config) where
  admits _ := True
  allows _ _ c ch s := ch.fault = .none ∧ c.Novel ch.text s

/-- The length of a generated text in a key. -/
def Key.size : Key → ℕ
  | withdrawalId text | walletTransactionId text | transferId text | transferFlutterwaveTxRef text =>
      text.toList.length
  | _ => 0

theorem exists_size_lt (ks : List Key) : ∃ n, ∀ k ∈ ks, k.size < n := by
  induction ks with
  | nil => exact ⟨0, fun k hk => absurd hk List.not_mem_nil⟩
  | cons k ks ih =>
      obtain ⟨n, hn⟩ := ih
      refine ⟨max (k.size + 1) n, fun k' hk' => ?_⟩
      rcases List.mem_cons.mp hk' with rfl | hk'
      · omega
      · have := hn k' hk'
        omega

/-- A text that is longer than all others. -/
def longText (n : ℕ) : String := String.ofList (List.replicate n 'a')

theorem length_longText (n : ℕ) : (longText n).toList.length = n := by
  simp [longText]

theorem withoutDashes_longText (n : ℕ) : withoutDashes (longText n) = longText n := by
  simp [withoutDashes, longText]

theorem isColumnText_longText (n : ℕ) : isColumnText (longText n) = true := by
  have ha : ('a' : Char) ≠ Char.ofNat 0 := by decide
  simp [isColumnText, longText, ha]

/-- There is always an id that no row has. -/
theorem exists_new_id (ks : List Key) :
    ∃ text, isColumnText text = true ∧ ∀ k ∈ idKeys text, k ∉ ks := by
  obtain ⟨n, hn⟩ := exists_size_lt ks
  refine ⟨longText n, isColumnText_longText n, fun k hk hmem => ?_⟩
  have hsize : k.size = n := by
    simp only [idKeys, List.mem_cons, List.not_mem_nil, or_false] at hk
    rcases hk with rfl | rfl | rfl <;> exact length_longText n
  exact absurd (hn k hmem) (by omega)

/-- So there is always a reference that no transfer has. -/
theorem exists_new_txRef (ks : List Key) : ∃ text, isColumnText text = true ∧ ∀ userId : String,
    Key.transferFlutterwaveTxRef ("fund_" ++ sliceEight userId ++ "_" ++ withoutDashes text) ∉ ks := by
  obtain ⟨n, hn⟩ := exists_size_lt ks
  refine ⟨longText n, isColumnText_longText n, fun userId hmem => ?_⟩
  have hsize := hn _ hmem
  simp only [Key.size, withoutDashes_longText, String.toList_append, List.length_append,
    length_longText] at hsize
  omega

/-! ### What the thread knows -/

/-- Thread `i` is alone, `o` is its buffer if its transaction is open, `d` is the
committed database, and the time is at least `n`. -/
structure Lone (i n : ℕ) (o : Option (List Write)) (d : Db) (s : World) : Prop where
  coherent : s.store.Coherent
  others : ∀ j, j ≠ i → s.store.opened j = none
  opened : s.store.opened i = o
  db : s.db = d
  clock : n ≤ s.clock

namespace Lone

theorem of_store_eq (h : Lone i n o d s) (hstore : t.store = s.store) (hclock : s.clock ≤ t.clock) :
    Lone i n o d t where
  coherent := hstore ▸ h.coherent
  others j hj := hstore ▸ h.others j hj
  opened := hstore ▸ h.opened
  db := (congrArg Store.db hstore).trans h.db
  clock := h.clock.trans hclock

theorem record (h : Lone i n o d s) (e : Event) : Lone i n o d (s.record e) :=
  h.of_store_eq rfl le_rfl

theorem view_pool (h : Lone i n o d s) : s.view i .pool = d := h.db

theorem view_tx (h : Lone i n (some ws) d s) : s.view i .tx = schema.applyAll ws d := by
  show s.store.view i = _
  rw [Store.view, Store.buffer_of_opened h.opened]
  exact congrArg _ h.db

/-- Only the thread itself holds entries in the indexes. -/
theorem claims_eq_none (h : Lone i n o d s) {k : Key} (hk : ∀ w ∈ o.getD [], k ∉ w.keys) :
    s.store.claims k = none := by
  cases hc : s.store.claims k with
  | none => rfl
  | some j =>
      obtain ⟨ws, hopen, w, hw, hkw⟩ := h.coherent.claimed.mp hc
      by_cases hj : j = i
      · subst hj
        rw [h.opened] at hopen
        subst hopen
        exact absurd hkw (hk w hw)
      · cases (h.others j hj).symm.trans hopen

/-- What is new to the world is new to the index and to the buffer. -/
theorem new_of_claims (h : Lone i n o d s) {k : Key} (hindex : k ∉ s.db.keys)
    (hclaims : s.store.claims k = none) : k ∉ Db.keys (schema.applyAll (o.getD []) d) := by
  intro hk
  rcases (Schema.mem_index_applyAll (T := schema)).mp hk with hk | ⟨w, hw, hkw⟩
  · exact hindex (h.db ▸ hk)
  · cases o with
    | none => exact List.not_mem_nil hw
    | some ws =>
        have hclaimed := h.coherent.claimed.mpr ⟨ws, h.opened, w, hw, hkw⟩
        cases hclaims.symm.trans hclaimed

theorem claims_of_new (h : Lone i n o d s) {k : Key}
    (hk : k ∉ Db.keys (schema.applyAll (o.getD []) d)) : k ∉ s.db.keys ∧ s.store.claims k = none := by
  have hnew : ¬(k ∈ d.keys ∨ ∃ w ∈ o.getD [], k ∈ w.keys) :=
    mt (Schema.mem_index_applyAll (T := schema)).mpr hk
  rw [not_or] at hnew
  exact ⟨h.db ▸ hnew.1, h.claims_eq_none fun w hw hkw => hnew.2 ⟨w, hw, hkw⟩⟩

/-- Only the thread itself holds locks. -/
theorem locks (h : Lone i n o d s) (r : String) : s.store.locks r = none ∨ s.store.locks r = some i := by
  cases hl : s.store.locks r with
  | none => exact .inl rfl
  | some j =>
      by_cases hj : j = i
      · exact .inr (congrArg some hj)
      · have hopen := h.coherent.locked hl
        rw [h.others j hj] at hopen
        cases hopen

end Lone

/-! ### Statements of the store -/

namespace Lone

variable {w : Write}

/-- The entries of the write are new to the committed index and to the buffer. -/
theorem new_of_keys (h : Lone i n o d s)
    (hnew : ∀ k ∈ w.keys, k ∉ Db.keys (schema.applyAll (o.getD []) d)) :
    (w.keys.any fun k => k ∈ s.db.keys) = false ∧ (w.keys.any fun k => (s.store.claims k).isSome) = false := by
  refine ⟨List.any_eq_false.mpr fun k hk => ?_, List.any_eq_false.mpr fun k hk => ?_⟩
  · simpa using (h.claims_of_new (hnew k hk)).1
  · simp [(h.claims_of_new (hnew k hk)).2]

theorem begin (h : Lone i n none d s) :
    ∃ store, s.store.begin i = some store ∧ Lone i n (some []) d { s with store } := by
  obtain ⟨store, hb⟩ : ∃ store, s.store.begin i = some store := by
    rw [Store.begin, h.opened]
    exact ⟨_, rfl⟩
  refine ⟨store, hb, h.coherent.begin hb, fun j hj => ?_, ?_, ?_, h.clock⟩
  · exact ((Store.Owned.begin hb).opened hj).trans (h.others j hj)
  · obtain ⟨-, rfl⟩ := Store.begin_eq_some hb
    exact Function.update_self ..
  · obtain ⟨-, rfl⟩ := Store.begin_eq_some hb
    exact h.db

theorem lock (h : Lone i n (some ws) d s) (walletId : String) :
    ∃ store, s.store.lock i walletId = some store ∧ Lone i n (some ws) d { s with store } := by
  obtain ⟨store, hlock⟩ : ∃ store, s.store.lock i walletId = some store := by
    rcases h.locks walletId with hfree | hown
    · simp [Store.lock, h.opened, hfree]
    · simp [Store.lock, h.opened, hown]
  refine ⟨store, hlock, h.coherent.lock hlock, fun j hj => ?_, ?_, ?_, h.clock⟩
  · exact ((Store.Owned.lock hlock).opened hj).trans (h.others j hj)
  · obtain ⟨-, -, rfl⟩ := Store.lock_eq_some hlock
    exact h.opened
  · obtain ⟨-, -, rfl⟩ := Store.lock_eq_some hlock
    exact h.db

theorem stage (h : Lone i n (some ws) d s)
    (hnew : ∀ k ∈ w.keys, k ∉ Db.keys (schema.applyAll ws d)) :
    ∃ store, s.stage i w .tx = .done store ∧ Lone i n (some (ws ++ [w])) d { s with store } := by
  obtain ⟨store, hstage⟩ : ∃ store, s.store.stage i w = .done store := by
    obtain ⟨hindex, hclaims⟩ := h.new_of_keys hnew
    have hown : ((schema.keys w).any fun k =>
        k ∈ schema.index s.store.db || s.store.claims k == some i) = false := by
      refine List.any_eq_false.mpr fun k hk => ?_
      have hk' := h.claims_of_new (hnew k hk)
      simp [hk'.2]
      exact hk'.1
    unfold Store.stage
    rw [h.opened]
    exact ⟨_, (if_neg (Bool.not_eq_true _ ▸ hown)).trans (if_neg (Bool.not_eq_true _ ▸ hclaims))⟩
  refine ⟨store, hstage, h.coherent.stage hstage, fun j hj => ?_, ?_, ?_, h.clock⟩
  · exact ((Store.Owned.stage hstage).opened hj).trans (h.others j hj)
  · obtain ⟨ws', hopen, -, -, rfl⟩ := Store.stage_eq_done hstage
    cases h.opened.symm.trans hopen
    exact Function.update_self ..
  · obtain ⟨ws', -, -, -, rfl⟩ := Store.stage_eq_done hstage
    exact h.db

theorem write (h : Lone i n none d s) (hnew : ∀ k ∈ w.keys, k ∉ d.keys) :
    ∃ store, s.stage i w .pool = .done store ∧ Lone i n none (w.apply d) { s with store } := by
  obtain ⟨store, hwrite⟩ : ∃ store, s.store.write w = .done store := by
    obtain ⟨hindex, hclaims⟩ := h.new_of_keys hnew
    unfold Store.write
    exact ⟨_, (if_neg (Bool.not_eq_true _ ▸ hindex)).trans (if_neg (Bool.not_eq_true _ ▸ hclaims))⟩
  refine ⟨store, hwrite, h.coherent.write hwrite, fun j hj => ?_, ?_, ?_, h.clock⟩
  · exact ((Store.Owned.write hwrite).opened hj).trans (h.others j hj)
  · obtain ⟨-, -, rfl⟩ := Store.write_eq_done hwrite
    exact h.opened
  · obtain ⟨-, -, rfl⟩ := Store.write_eq_done hwrite
    show w.apply s.db = _
    rw [h.db]

theorem commit (h : Lone i n (some ws) d s) :
    ∃ store, s.store.commit i = some store ∧
      Lone i n none (schema.applyAll ws d) { s with store } := by
  obtain ⟨store, hcommit⟩ : ∃ store, s.store.commit i = some store := by
    rw [Store.commit, h.opened]
    exact ⟨_, rfl⟩
  refine ⟨store, hcommit, h.coherent.commit hcommit, fun j hj => ?_, ?_, ?_, h.clock⟩
  · exact ((Store.Owned.commit hcommit).opened hj).trans (h.others j hj)
  · obtain ⟨ws', -, rfl⟩ := Store.commit_eq_some hcommit
    exact Function.update_self ..
  · obtain ⟨ws', hopen, rfl⟩ := Store.commit_eq_some hcommit
    cases h.opened.symm.trans hopen
    show schema.applyAll ws s.db = _
    rw [h.db]

theorem rollback (h : Lone i n o d s) : Lone i n none d { s with store := s.store.rollback i } where
  coherent := h.coherent.rollback i
  others j hj := ((Store.Owned.release i s.store).opened hj).trans (h.others j hj)
  opened := Function.update_self ..
  db := h.db
  clock := h.clock

end Lone

/-! ### The rules -/

/-- No answer of the provider looks like an error of the database. -/
theorem FlutterwavePaymentService.initiatePayment_ne_prisma (answer : HttpAnswer) (code : PrismaCode) :
    FlutterwavePaymentService.initiatePayment answer ≠ .error (.prisma code) := by
  have failure_ne (body : Json) : initiatePayment.failure body ≠ .prisma code := by
    simp only [initiatePayment.failure]
    split <;> exact Err.noConfusion
  intro h
  simp only [initiatePayment, bind, Except.bind] at h
  split at h
  · rename_i e he
    cases h
    simp only [HttpAnswer.json] at he
    split at he <;> cases he
  · split at h
    · split at h
      · cases h
      · exact failure_ne _ (Except.error.inj h)
    · exact failure_ne _ (Except.error.inj h)

section Rules

variable (P config) in
/-- The program, run by thread `i` alone, comes to an end and ends in `Q`. -/
abbrev Calmly {α : Type} (i : ℕ) (call : Call) (p : Program α) (Q : Except Err α → World → Prop)
    (s : World) : Prop :=
  Total (calmly P config) i call p Q s

/-- A command, in calm weather. -/
theorem calm_perform {c : Cmd} {Q : Except Err c.Resp → World → Prop}
    (hcan : ∃ ch : Choice, ch.fault = .none ∧ c.Novel ch.text s ∧
      (World.perform P config i c ch s).isSome)
    (h : ∀ ch r t, c.Novel ch.text s → World.perform P config i c ch s = some (r, t) →
      Q r (t.record ⟨i, c, r, r.isOk⟩)) :
    Calmly P config i call (perform c) Q s := by
  have calm {ch : Choice} (hf : ch.fault = .none) : World.exec P config i c ch s =
      (World.perform P config i c ch s).map fun rt => (rt.1, rt.2.record ⟨i, c, rt.1, rt.1.isOk⟩) := by
    simp [World.exec, hf]
  refine Total.perform ?_ fun ch r t ha he => ?_
  · obtain ⟨ch, hf, hn, hsome⟩ := hcan
    obtain ⟨⟨r, t⟩, hp⟩ := Option.isSome_iff_exists.mp hsome
    exact ⟨ch, r, _, ⟨hf, hn⟩, (calm hf).trans (by rw [hp]; rfl)⟩
  · replace he := (calm ha.1).symm.trans he
    obtain ⟨⟨r', t'⟩, hp, heq⟩ := Option.map_eq_some_iff.mp he
    cases heq
    exact h ch r' t' ha.2 hp

/-- A command that leaves the store alone and cannot be refused. -/
theorem calm_aside {c : Cmd} {Q : Except Err c.Resp → World → Prop} (h : Lone i n o d s)
    (hcan : ∃ ch : Choice, ch.fault = .none ∧ c.Novel ch.text s ∧
      (World.perform P config i c ch s).isSome)
    (hstore : ∀ {ch r t}, World.perform P config i c ch s = some (r, t) →
      t.store = s.store ∧ s.clock ≤ t.clock)
    (hQ : ∀ ch r t t', c.Novel ch.text s → World.perform P config i c ch s = some (r, t') →
      t = t'.record ⟨i, c, r, r.isOk⟩ → Lone i n o d t → Q r t) :
    Calmly P config i call (perform c) Q s := by
  refine calm_perform hcan fun ch r t hn hp => hQ ch r _ t hn hp rfl ?_
  obtain ⟨hst, hclock⟩ := hstore hp
  exact (h.of_store_eq hst hclock).record _

theorem calm_select_pool {qy : Query} {a : qy.Result} {Q : Except Err qy.Result → World → Prop}
    (h : Lone i n o d s) (ha : qy.run d = a) (hQ : ∀ t, Lone i n o d t → Q (.ok a) t) :
    Calmly P config i call (select .pool qy) Q s := by
  refine calm_aside h ⟨{}, rfl, trivial, rfl⟩ (fun hp => ?_) fun ch r t t' _ hp _ ht => ?_
  · cases hp
    exact ⟨rfl, le_rfl⟩
  · cases hp
    rw [h.view_pool, ha]
    exact hQ t ht

/-- Before its first write a transaction sees what is committed. -/
theorem calm_select_tx {qy : Query} {a : qy.Result} {Q : Except Err qy.Result → World → Prop}
    (h : Lone i n (some []) d s) (ha : qy.run d = a) (hQ : ∀ t, Lone i n (some []) d t → Q (.ok a) t) :
    Calmly P config i call (select .tx qy) Q s := by
  refine calm_aside h ⟨{}, rfl, trivial, rfl⟩ (fun hp => ?_) fun ch r t t' _ hp _ ht => ?_
  · cases hp
    exact ⟨rfl, le_rfl⟩
  · cases hp
    have hview : s.view i .tx = d := h.view_tx
    rw [hview, ha]
    exact hQ t ht

theorem calm_balance {walletId : String} {Q : Except Err ℤ → World → Prop} (h : Lone i n (some []) d s)
    (hQ : ∀ t, Lone i n (some []) d t → Q (.ok (sumSuccessfulBalance d walletId)) t) :
    Calmly P config i call (selectSuccessfulBalance .tx walletId) Q s :=
  calm_select_tx h rfl hQ

theorem calm_now {Q : Except Err ℕ → World → Prop} (h : Lone i n o d s)
    (hQ : ∀ (now : ℕ) t, n ≤ now → Lone i n o d t → Q (.ok now) t) :
    Calmly P config i call (perform .now) Q s := by
  refine calm_aside h ⟨{}, rfl, trivial, rfl⟩ (fun hp => ?_) fun ch r t t' _ hp _ ht => ?_
  · cases hp
    exact ⟨rfl, le_max_left ..⟩
  · cases hp
    exact hQ _ t (h.clock.trans (le_max_left ..)) ht

theorem calm_bcryptCompare {password hash : String} {Q : Except Err Bool → World → Prop}
    (h : Lone i n o d s) (hQ : ∀ t, Lone i n o d t → Q (.ok (P.bcryptCompare password hash)) t) :
    Calmly P config i call (perform (.bcryptCompare password hash)) Q s := by
  refine calm_aside h ⟨{}, rfl, trivial, rfl⟩ (fun hp => ?_) fun ch r t t' _ hp _ ht => ?_
  · cases hp
    exact ⟨rfl, le_rfl⟩
  · cases hp
    exact hQ t ht

/-- Whatever the provider answers. -/
theorem calm_initiatePayment {params : InitiatePaymentParams}
    {Q : Except Err InitiatePaymentResult → World → Prop} (h : Lone i n o d s)
    (hQ : ∀ r t, (∀ code, r ≠ .error (.prisma code)) → Lone i n o d t → Q r t) :
    Calmly P config i call (perform (.initiatePayment params)) Q s := by
  refine calm_aside h ⟨{}, rfl, trivial, ?_⟩ (fun hp => ?_) fun ch r t t' _ hp _ ht => ?_
  · simp only [World.perform]
    split <;> rfl
  · simp only [World.perform] at hp
    split at hp <;> cases hp <;> exact ⟨rfl, le_rfl⟩
  · refine hQ r t (fun code hr => ?_) ht
    subst hr
    simp only [World.perform] at hp
    split at hp
    · cases hp
    · exact FlutterwavePaymentService.initiatePayment_ne_prisma _ code
        (Prod.ext_iff.mp (Option.some.inj hp)).1

theorem calm_randomUUID {Q : Except Err String → World → Prop} (h : Lone i n o d s)
    (hQ : ∀ uuid t, Cmd.Novel .randomUUID uuid s → Lone i n o d t → Q (.ok uuid) t) :
    Calmly P config i call (perform .randomUUID) Q s := by
  obtain ⟨text, htext⟩ := exists_new_txRef s.db.keys
  refine calm_aside h ⟨{ text }, rfl, htext, rfl⟩ (fun hp => ?_) fun ch r t t' hn hp _ ht => ?_
  · cases hp
    exact ⟨rfl, le_rfl⟩
  · cases hp
    exact hQ _ t hn ht

theorem calm_defaults {Q : Except Err (String × ℕ) → World → Prop} (h : Lone i n o d s)
    (hQ : ∀ (stamp : String × ℕ) t, isColumnText stamp.1 = true →
      (∀ k ∈ idKeys stamp.1, k ∉ Db.keys (schema.applyAll (o.getD []) d)) → Lone i n o d t →
      Q (.ok stamp) t) :
    Calmly P config i call (perform .defaults) Q s := by
  obtain ⟨text, hfits, htext⟩ := exists_new_id (Db.keys (schema.applyAll (o.getD []) d))
  refine calm_aside h ⟨{ text }, rfl, ⟨hfits, fun k hk => h.claims_of_new (htext k hk)⟩, rfl⟩
    (fun hp => ?_) fun ch r t t' hn hp _ ht => ?_
  · cases hp
    exact ⟨rfl, le_rfl⟩
  · cases hp
    obtain ⟨hfits, hn⟩ := hn
    exact hQ _ t hfits (fun k hk => h.new_of_claims (hn k hk).1 (hn k hk).2) ht

theorem calm_orThrow {α : Type} {o : Option α} {e : Err} {Q : Except Err α → World → Prop}
    (hnone : Q (.error e) s) (hsome : ∀ a, o = some a → Q (.ok a) s) :
    Calmly P config i call (orThrow o e) Q s := by
  cases o with
  | none => exact hnone
  | some a => exact hsome a rfl

theorem calm_throwIf {b : Prop} [Decidable b] {e : Err} {Q : Except Err Unit → World → Prop} (hb : ¬b)
    (hQ : Q (.ok ()) s) : Calmly P config i call (throwIf b e) Q s := by
  rw [throwIf, if_neg hb]
  exact hQ

/-! ### Transactions -/

theorem calm_begin {Q : Except Err Unit → World → Prop} (h : Lone i n none d s)
    (hQ : ∀ t, Lone i n (some []) d t → Q (.ok ()) t) :
    Calmly P config i call (perform .begin) Q s := by
  obtain ⟨store, hb, ht⟩ := h.begin
  have hp (ch : Choice) : World.perform P config i .begin ch s = some (.ok (), { s with store }) := by
    simp only [World.perform, hb, Option.map_some]
  refine calm_perform ⟨{}, rfl, trivial, by rw [hp]; rfl⟩ fun ch r t _ hp' => ?_
  cases (hp ch).symm.trans hp'
  exact hQ _ (ht.record _)

theorem calm_commit {Q : Except Err Unit → World → Prop} (h : Lone i n (some ws) d s)
    (hQ : ∀ t, Lone i n none (schema.applyAll ws d) t → Q (.ok ()) t) :
    Calmly P config i call (perform .commit) Q s := by
  obtain ⟨store, hc, ht⟩ := h.commit
  have hp (ch : Choice) : World.perform P config i .commit ch s = some (.ok (), { s with store }) := by
    simp only [World.perform, hc, Option.map_some]
  refine calm_perform ⟨{}, rfl, trivial, by rw [hp]; rfl⟩ fun ch r t _ hp' => ?_
  cases (hp ch).symm.trans hp'
  exact hQ _ (ht.record _)

theorem calm_rollback {Q : Except Err Unit → World → Prop} (h : Lone i n o d s)
    (hQ : ∀ t, Lone i n none d t → Q (.ok ()) t) :
    Calmly P config i call (perform .rollback) Q s := by
  refine calm_perform ⟨{}, rfl, trivial, rfl⟩ fun ch r t _ hp => ?_
  cases hp
  exact hQ _ (h.rollback.record _)

theorem calm_lockWalletRow {walletId : String} {Q : Except Err Unit → World → Prop}
    (h : Lone i n (some ws) d s) (hw : ∃ x ∈ d.wallets, x.id = walletId)
    (hQ : ∀ t, Lone i n (some ws) d t → Q (.ok ()) t) :
    Calmly P config i call (lockWalletRow walletId) Q s := by
  obtain ⟨store, hl, ht⟩ := h.lock walletId
  have hp (ch : Choice) : World.perform P config i (.lockWalletRow walletId) ch s =
      some (.ok true, { s with store }) := by
    have hany : s.db.wallets.any (·.id = walletId) = true := by
      rw [h.db]
      simpa using hw
    simp only [World.perform, World.lockWalletRow, hany, hl, if_true, Option.map_some]
    rfl
  refine Total.bind (calm_perform ⟨{}, rfl, trivial, by rw [hp]; rfl⟩ fun ch r t _ hp' => ?_)
  cases (hp ch).symm.trans hp'
  exact hQ _ (ht.record _)

theorem calm_lockWalletRows {ids : List String} {Q : Except Err Unit → World → Prop} :
    ∀ {s}, Lone i n (some ws) d s → (∀ id ∈ ids, ∃ x ∈ d.wallets, x.id = id) →
      (∀ t, Lone i n (some ws) d t → Q (.ok ()) t) →
      Calmly P config i call (lockWalletRows ids) Q s := by
  induction ids with
  | nil => exact fun h _ hQ => hQ _ h
  | cons id ids ih =>
      intro s h hids hQ
      refine Total.bind (calm_lockWalletRow h (hids id (.head _)) fun t ht => ?_)
      exact ih ht (fun id' hid' => hids id' (.tail _ hid')) hQ

/-- A write inside the transaction. -/
theorem calm_write_tx {w : Write} {row : w.Result} {Q : Except Err w.Result → World → Prop}
    (h : Lone i n (some ws) d s) (hstorable : w.storable = true)
    (hrow : w.result (schema.applyAll ws d) = some row)
    (hnew : ∀ k ∈ w.keys, k ∉ Db.keys (schema.applyAll ws d))
    (hQ : ∀ t, Lone i n (some (ws ++ [w])) d t → Q (.ok row) t) :
    Calmly P config i call (write .tx w) Q s := by
  obtain ⟨store, hs, ht⟩ := h.stage hnew
  have hp (ch : Choice) : World.perform P config i (.write .tx w) ch s =
      some (.ok row, { s with store }) :=
    write_of_stage hstorable (h.view_tx ▸ hrow) hs
  refine calm_perform ⟨{}, rfl, trivial, by rw [hp]; rfl⟩ fun ch r t _ hp' => ?_
  cases (hp ch).symm.trans hp'
  exact hQ _ (ht.record _)

/-- A write outside of a transaction. -/
theorem calm_write_pool {w : Write} {row : w.Result} {Q : Except Err w.Result → World → Prop}
    (h : Lone i n none d s) (hstorable : w.storable = true) (hrow : w.result d = some row)
    (hnew : ∀ k ∈ w.keys, k ∉ d.keys) (hQ : ∀ t, Lone i n none (w.apply d) t → Q (.ok row) t) :
    Calmly P config i call (write .pool w) Q s := by
  obtain ⟨store, hs, ht⟩ := h.write hnew
  have hp (ch : Choice) : World.perform P config i (.write .pool w) ch s =
      some (.ok row, { s with store }) :=
    write_of_stage hstorable (h.view_pool ▸ hrow) hs
  refine calm_perform ⟨{}, rfl, trivial, by rw [hp]; rfl⟩ fun ch r t _ hp' => ?_
  cases (hp ch).symm.trans hp'
  exact hQ _ (ht.record _)

/-- A write that the columns cannot hold. -/
theorem calm_write_unstorable {client : Client} {w : Write} {Q : Except Err w.Result → World → Prop}
    (h : Lone i n o d s) (hstorable : w.storable = false)
    (hQ : ∀ t, Lone i n o d t →
      Q (.error (.prisma (if w.inRange then .invalidText else .valueOutOfRange))) t) :
    Calmly P config i call (write client w) Q s := by
  have hp (ch : Choice) : World.perform P config i (.write client w) ch s =
      some (.error (.prisma (if w.inRange then .invalidText else .valueOutOfRange)), s) :=
    write_of_not_storable hstorable
  refine calm_perform ⟨{}, rfl, trivial, by rw [hp]; rfl⟩ fun ch r t _ hp' => ?_
  cases (hp ch).symm.trans hp'
  exact hQ _ (h.record _)

/-- A transaction that commits, or whose body throws. -/
theorem calm_transaction {α : Type} {body : Program α} {Q : Except Err α → World → Prop}
    (h : Lone i n none d s)
    (hbody : ∀ t, Lone i n (some []) d t → Calmly P config i call body
      (Sole.Ends (M := walletApi P config)
        (fun a u => ∃ ws, Lone i n (some ws) d u ∧
          ∀ v, Lone i n none (schema.applyAll ws d) v → Q (.ok a) v)
        fun e u => (∃ o, Lone i n o d u) ∧ ∀ v, Lone i n none d v → Q (.error e) v) t) :
    Calmly P config i call (transaction body) Q s := by
  refine Total.tryCatch (Total.bind (calm_begin h fun t ht => ?_))
  refine Total.bind ((hbody t ht).mono fun r u hr => ?_)
  cases r with
  | ok a =>
      obtain ⟨ws, hu, hv⟩ := hr
      exact Total.bind (calm_commit hu hv)
  | error e =>
      obtain ⟨⟨o, hu⟩, hv⟩ := hr
      exact Total.bind (calm_rollback hu hv)

end Rules

end WalletApi
