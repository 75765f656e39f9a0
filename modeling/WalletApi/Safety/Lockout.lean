import WalletApi.Concurrency.Serial
import WalletApi.Runs.Timeline

/-!
The lock after three wrong secrets.

Passwords and PINs are guarded by the same scheme: the row of the user counts the
wrong attempts, the third one in a row sets a lock, and while the lock is in
force nothing is compared at all. What this is worth is a statement about time:
how many wrong secrets can be compared within the time of a lock.

The counter is read, incremented in memory and written back. Checks that overlap
read the same count, so that any number of them are compared at once, and a
comparison whose counter is not written is not counted at all. If no check acts on
a row that another one has outdated, and none begins while a wrong comparison is
not counted, any four wrong comparisons in a row span at least the time of a lock.
The invariant ties the row to the record: the wrong comparisons that the row no
longer counts are as old as a lock.
-/

namespace WalletApi

open Concurrency ReadCommitted Machine

/-! ### The record of the comparisons -/

/-- The times of the wrong comparisons since the last right one, newest first. -/
def streak (compared : List Comparison) : List ℕ :=
  (compared.takeWhile fun e => !e.right).map (·.time)

/-- Any four wrong comparisons with no right one between them span the time of a lock. -/
def Spaced (compared : List Comparison) : Prop :=
  ∀ newer last between first older,
    compared = newer ++ last :: (between ++ first :: older) →
    last.right = false → (∀ e ∈ between, e.right = false) → first.right = false →
    2 ≤ between.length → first.time + AUTH_LOCK_MS ≤ last.time

/-- Within less than the time of a lock at most three wrong secrets are compared, as
long as no right one is. -/
def Limited (compared : List Comparison) : Prop :=
  ∀ newer window older, compared = newer ++ window ++ older → (∀ e ∈ window, e.right = false) →
    (∀ e ∈ window, ∀ e' ∈ window, e.time < e'.time + AUTH_LOCK_MS) → window.length ≤ MAX_AUTH_TRIES

theorem Spaced.limited {compared : List Comparison} (h : Spaced compared) : Limited compared := by
  intro newer window older hsplit hwrong hshort
  by_contra hlong
  rw [not_le, MAX_AUTH_TRIES] at hlong
  cases window with
  | nil => simp at hlong
  | cons last rest =>
      rcases List.eq_nil_or_concat rest with rfl | ⟨between, first, rfl⟩
      · simp at hlong
      · have hgap : first.time + AUTH_LOCK_MS ≤ last.time := by
          refine h newer last between first older ?_ (hwrong _ (by simp)) (fun e he => ?_)
            (hwrong _ (by simp)) ?_
          · simpa using hsplit
          · exact hwrong e (by simp [he])
          · simp only [List.concat_eq_append, List.length_cons, List.length_append,
              List.length_nil] at hlong
            omega
        have hless : last.time < first.time + AUTH_LOCK_MS :=
          hshort last (by simp) first (by simp)
        omega

theorem Spaced.nil : Spaced [] := by
  intro newer last between first older hsplit
  simp at hsplit

theorem Spaced.right {compared : List Comparison} (h : Spaced compared) (time : ℕ) :
    Spaced (⟨time, true⟩ :: compared) := by
  intro newer last between first older hsplit hlast
  cases newer with
  | nil =>
      obtain ⟨rfl, -⟩ := List.cons.inj hsplit
      cases hlast
  | cons e newer => exact h newer last between first older (List.cons.inj hsplit).2 hlast

/-- A wrong comparison that comes a lock after all but the last two of its streak. -/
theorem Spaced.wrong {compared : List Comparison} (h : Spaced compared) {time : ℕ}
    (hgap : ∀ x ∈ (streak compared).drop 2, x + AUTH_LOCK_MS ≤ time) :
    Spaced (⟨time, false⟩ :: compared) := by
  intro newer last between first older hsplit hlast hbetween hfirst hlength
  cases newer with
  | cons e newer =>
      exact h newer last between first older (List.cons.inj hsplit).2 hlast hbetween hfirst hlength
  | nil =>
      obtain ⟨rfl, rfl⟩ := List.cons.inj hsplit
      refine hgap first.time ?_
      have hstreak : streak (between ++ first :: older) =
          between.map (·.time) ++ first.time :: streak older := by
        have hall : ∀ e ∈ between, (!e.right) = true := by simpa using hbetween
        rw [streak, List.takeWhile_append_of_pos hall, List.takeWhile_cons_of_pos (by simp [hfirst]),
          List.map_append, List.map_cons, streak]
      rw [hstreak, List.drop_append_of_le_length (by simpa using hlength)]
      exact List.mem_append_right _ (.head _)

/-! ### The counter and the lock -/

/-- What the counter and the lock of a row say about the comparisons so far. If the
checks are steady, that is, if the clock stands still during a check, the counter
stops at its maximum. -/
structure Counted (steady : Prop) (tryCount : ℕ) (lockedUntil : Option ℕ)
    (compared : List Comparison) (clock : ℕ) : Prop where
  spaced : Spaced compared
  past : ∀ x ∈ streak compared, x ≤ clock
  unlocked : lockedUntil = none →
    tryCount < MAX_AUTH_TRIES ∧ ∀ x ∈ (streak compared).drop tryCount, x + AUTH_LOCK_MS ≤ clock
  locked : ∀ l, lockedUntil = some l →
    (steady → tryCount = MAX_AUTH_TRIES) ∧ MAX_AUTH_TRIES ≤ tryCount ∧
      ∀ x ∈ streak compared, x + AUTH_LOCK_MS ≤ l

namespace Counted

variable {steady : Prop} {n t t' : ℕ} {l : Option ℕ} {compared : List Comparison}

theorem initial : Counted steady 0 none [] t where
  spaced := .nil
  past := by simp [streak]
  unlocked _ := ⟨by decide, by simp [streak]⟩
  locked := nofun

theorem later (h : Counted steady n l compared t) (ht : t ≤ t') : Counted steady n l compared t' where
  spaced := h.spaced
  past x hx := (h.past x hx).trans ht
  unlocked hl := ⟨(h.unlocked hl).1, fun x hx => ((h.unlocked hl).2 x hx).trans ht⟩
  locked := h.locked

/-- The lock has run out and is lifted. -/
theorem expired {lockedUntil : ℕ} (h : Counted steady n (some lockedUntil) compared t)
    (hl : lockedUntil ≤ t) : Counted steady 0 none compared t where
  spaced := h.spaced
  past := h.past
  unlocked _ := ⟨by decide, fun x hx =>
    ((h.locked _ rfl).2.2 x (List.mem_of_mem_drop hx)).trans hl⟩
  locked := nofun

/-- A right comparison, which the row is not told of. -/
theorem unchanged (h : Counted steady n l compared t) :
    Counted steady n l (⟨t, true⟩ :: compared) t where
  spaced := h.spaced.right t
  past := by simp [streak]
  unlocked hl := ⟨(h.unlocked hl).1, by simp [streak]⟩
  locked l hl := ⟨(h.locked l hl).1, (h.locked l hl).2.1, by simp [streak]⟩

/-- A right comparison, after which the counter is cleared. -/
theorem right (h : Counted steady n l compared t) : Counted steady 0 none (⟨t, true⟩ :: compared) t where
  spaced := h.spaced.right t
  past := by simp [streak]
  unlocked _ := ⟨by decide, by simp [streak]⟩
  locked := nofun

theorem row (h : Counted steady n l compared t) (hs : steady) :
    n ≤ MAX_AUTH_TRIES ∧ (l.isSome = true ↔ n = MAX_AUTH_TRIES) := by
  cases l with
  | none =>
      have hlt := (h.unlocked rfl).1
      exact ⟨hlt.le, by simp [hlt.ne]⟩
  | some lockedUntil =>
      have heq := (h.locked _ rfl).1 hs
      exact ⟨heq.le, by simp [heq]⟩

/-- No comparison is refused to the record as long as no lock is in force. -/
theorem gap (h : Counted steady n l compared t) (hfree : ∀ lockedUntil, l = some lockedUntil → lockedUntil ≤ t) :
    ∀ x ∈ (streak compared).drop 2, x + AUTH_LOCK_MS ≤ t := by
  intro x hx
  cases l with
  | none =>
      obtain ⟨hn, hold⟩ := h.unlocked rfl
      refine hold x ?_
      rw [MAX_AUTH_TRIES] at hn
      have hdrop : (streak compared).drop 2 = ((streak compared).drop n).drop (2 - n) := by
        rw [List.drop_drop, show n + (2 - n) = 2 by omega]
      rw [hdrop] at hx
      exact List.mem_of_mem_drop hx
  | some lockedUntil =>
      exact ((h.locked _ rfl).2.2 x (List.mem_of_mem_drop hx)).trans (hfree _ rfl)

/-- The lock that the number of attempts leads to. -/
def lockAfter (attempts now : ℕ) : Option ℕ :=
  if MAX_AUTH_TRIES ≤ attempts then some (now + AUTH_LOCK_MS) else none

/-- A wrong comparison, after which it is counted and may lock. -/
theorem wrong (h : Counted steady n l compared t) (hfree : ∀ lockedUntil, l = some lockedUntil → lockedUntil ≤ t)
    (hsteady : steady → l = none) (ht : t ≤ t') :
    Counted steady (n + 1) (lockAfter (n + 1) t') (⟨t, false⟩ :: compared) t' := by
  have hstreak : streak (⟨t, false⟩ :: compared) = t :: streak compared := by simp [streak]
  refine ⟨h.spaced.wrong (h.gap hfree), ?_, ?_, ?_⟩
  · intro x hx
    rw [hstreak] at hx
    rcases List.mem_cons.mp hx with rfl | hx
    · exact ht
    · exact (h.past x hx).trans ht
  · intro hnone
    by_cases hn : MAX_AUTH_TRIES ≤ n + 1
    · rw [lockAfter, if_pos hn] at hnone
      cases hnone
    · refine ⟨by omega, fun x hx => ?_⟩
      rw [hstreak, List.drop_succ_cons] at hx
      cases l with
      | none => exact ((h.unlocked rfl).2 x hx).trans ht
      | some lockedUntil =>
          have := (h.locked _ rfl).2.1
          omega
  · intro lockedUntil hsome
    by_cases hn : MAX_AUTH_TRIES ≤ n + 1
    · rw [lockAfter, if_pos hn] at hsome
      cases hsome
      refine ⟨fun hs => ?_, hn, fun x hx => ?_⟩
      · have hlt := (h.unlocked (hsteady hs)).1
        omega
      · rw [hstreak] at hx
        rcases List.mem_cons.mp hx with rfl | hx
        · omega
        · have hpast := h.past x hx
          omega
    · rw [lockAfter, if_neg hn] at hsome
      cases hsome

end Counted

/-! ### The row of the account -/

/-- The columns that guard a secret. -/
structure Guard where
  tryCount : User → ℕ
  lockedUntil : User → Option ℕ
  update : ℕ → Option ℕ → UserUpdate
  tryCount_patch : ∀ (u : User) n l, tryCount (u.patch (update n l)) = n
  lockedUntil_patch : ∀ (u : User) n l, lockedUntil (u.patch (update n l)) = l

/-- The counter does not exceed its maximum, and the lock is set exactly there. -/
def Guard.Consistent (G : Guard) (user : User) : Prop :=
  G.tryCount user ≤ MAX_AUTH_TRIES ∧
    ((G.lockedUntil user).isSome = true ↔ G.tryCount user = MAX_AUTH_TRIES)

def passwordGuard : Guard where
  tryCount := User.passwordTryCount
  lockedUntil := User.passwordLockedUntil
  update n l := { passwordTryCount := some n, passwordLockedUntil := some l }
  tryCount_patch _ _ _ := rfl
  lockedUntil_patch _ _ _ := rfl

def pinGuard : Guard where
  tryCount := User.pinTryCount
  lockedUntil := User.pinLockedUntil
  update n l := { pinTryCount := some n, pinLockedUntil := some l }
  tryCount_patch _ _ _ := rfl
  lockedUntil_patch _ _ _ := rfl

/-- The user whose secret is checked, and by which addresses the row is looked up. -/
structure Account where
  id : String
  emails : List String

/-- The row of the account, however it is looked up. -/
structure Account.Row (a : Account) (d : Db) (user : User) : Prop where
  byId : d.user a.id = some user
  byEmail : ∀ email ∈ a.emails, (Query.userByEmail email).run d = some user

theorem Account.Row.id {a : Account} {d : Db} {user : User} (h : a.Row d user) : user.id = a.id :=
  (find?_user h.byId).2

theorem Account.Row.update {a : Account} {d : Db} {user : User} (h : a.Row d user)
    (data : UserUpdate) : a.Row ((Write.updateUser a.id data).apply d) (user.patch data) where
  byId := by rw [Db.user_update, if_pos rfl, h.byId, Option.map_some]
  byEmail email hemail := by
    have hfind := @find?_updateUser (fun u => decide (u.email = email)) data (fun _ => rfl)
      a.id d.users
    have hrow : d.users.find? (fun u => decide (u.email = email)) = some user := h.byEmail email hemail
    show (Write.update User.id a.id (·.patch data) d.users).find? _ = _
    rw [hfind, hrow, Option.map_some, if_pos h.id]

section Checks

variable {P : Platform} {config : Config} {C R : Type} {serve : C → Program R} {G : Guard}
  {a : Account} {steady : Prop} {call : C} {i : ℕ} {s t u : Timeline}

/-! ### What holds in every state -/

variable (G a steady) in
/-- The comparisons are spaced, and the row counts them unless a wrong one is still to be
counted. If the checks are steady, the row is consistent. -/
structure Sound (s : Timeline) : Prop where
  spaced : Spaced s.compared
  row : ∃ user, a.Row s.db user ∧ (steady → G.Consistent user) ∧
    (uncounted s.history = [] →
      Counted steady (G.tryCount user) (G.lockedUntil user) s.compared s.clock)

theorem Sound.of_eq (h : Sound G a steady s) (hdb : t.db = s.db) (hcompared : t.compared = s.compared)
    (huncounted : uncounted t.history = uncounted s.history) (hclock : s.clock ≤ t.clock) :
    Sound G a steady t where
  spaced := hcompared ▸ h.spaced
  row := by
    obtain ⟨user, hrow, hconsistent, hcounted⟩ := h.row
    rw [hdb, hcompared, huncounted]
    exact ⟨user, hrow, hconsistent, fun hnil => (hcounted hnil).later hclock⟩

theorem Sound.crash (h : Sound G a steady s) : Sound G a steady (s.crash i) :=
  h.of_eq rfl rfl rfl le_rfl

/-- A row that counts the comparisons. -/
theorem Counted.sound {user : User} (hrow : a.Row s.db user)
    (h : Counted steady (G.tryCount user) (G.lockedUntil user) s.compared s.clock) :
    Sound G a steady s :=
  ⟨h.spaced, user, hrow, h.row, fun _ => h⟩

/-- Before anything has been compared. -/
theorem Guard.Consistent.counted {user : User} (h : G.Consistent user) (clock : ℕ) :
    Counted steady (G.tryCount user) (G.lockedUntil user) [] clock where
  spaced := .nil
  past := by simp [streak]
  unlocked hl := by
    have hne : G.tryCount user ≠ MAX_AUTH_TRIES := fun heq => by simpa [hl] using h.2.mpr heq
    exact ⟨lt_of_le_of_ne h.1 hne, by simp [streak]⟩
  locked l hl := by
    have heq : G.tryCount user = MAX_AUTH_TRIES := h.2.mp (by rw [hl]; rfl)
    exact ⟨fun _ => heq, heq.ge, by simp [streak]⟩

theorem Guard.Consistent.sound {w : World} {user : User} (hrow : a.Row w.db user)
    (h : G.Consistent user) : Sound G a steady ⟨w, []⟩ :=
  (h.counted _).sound (s := ⟨w, []⟩) hrow

variable (G a) in
/-- A secret is compared only while no lock is in force. -/
def Unlocked (c : Cmd) (s : Timeline) : Prop :=
  ∀ secret hash, c = .bcryptCompare secret hash → ∀ user, a.Row s.db user →
    ∀ lockedUntil, G.lockedUntil user = some lockedUntil → lockedUntil ≤ s.clock

/-! ### What a check can rely on -/

/-- A step of another thread, as thread `i` sees it: if it is still up to date after the
step, nothing it knows has changed. -/
structure Apart (i : ℕ) (s t : Timeline) : Prop where
  later : s.clock ≤ t.clock
  kept : ReadingHolds i t.history = true → ReadingHolds i s.history = true ∧ t.db = s.db ∧
    t.compared = s.compared ∧ uncounted t.history = uncounted s.history

theorem Apart.refl (s : Timeline) : Apart i s s := ⟨le_rfl, fun h => ⟨h, rfl, rfl, rfl⟩⟩

theorem Apart.trans (h : Apart i s t) (h' : Apart i t u) : Apart i s u where
  later := h.later.trans h'.later
  kept hu := by
    obtain ⟨ht, hdb', hcompared', huncounted'⟩ := h'.kept hu
    obtain ⟨hs, hdb, hcompared, huncounted⟩ := h.kept ht
    exact ⟨hs, hdb'.trans hdb, hcompared'.trans hcompared, huncounted'.trans huncounted⟩

/-- A step of another thread leaves the row and the record alone, or it acts on the user. -/
theorem Apart.of_step {e : Event} (hclock : s.clock ≤ t.clock)
    (hhistory : t.history = e :: s.history) (hi : e.pid ≠ i)
    (hidle : ¬(e.cmd.actsOnUser = true ∧ e.took = true) → t.db = s.db ∧ t.compared = s.compared ∧
      uncounted t.history = uncounted s.history) : Apart i s t where
  later := hclock
  kept ht := by
    rw [hhistory] at ht
    obtain ⟨hs, hact⟩ := ReadingHolds.other hi ht
    exact ⟨hs, hidle hact⟩

/-- The care that a check takes: it begins when every wrong comparison is counted, and it
compares and writes only while it is up to date. If the checks are steady, they are not
interrupted, and the clock is read once per check, at its beginning. -/
structure Careful (steady : Prop) (i : ℕ) (c : Cmd) (ch : Choice) (s : Timeline) : Prop where
  begins : c.readsUser = true → uncounted s.history = []
  acts : c.actsOnUser = true → steady ∨ ReadingHolds i s.history = true
  still : steady → c.readsUser = false → ch.time ≤ s.clock

/-- The row, the record and the wrong comparisons that are not counted. -/
structure Recalled (a : Account) (user : User) (compared : List Comparison) (pending : List ℕ)
    (s : Timeline) : Prop where
  row : a.Row s.db user
  compared : s.compared = compared
  pending : uncounted s.history = pending

variable {user : User} {compared : List Comparison} {pending : List ℕ}

theorem Recalled.of_eq (h : Recalled a user compared pending s) (hdb : t.db = s.db)
    (hcompared : t.compared = s.compared) (huncounted : uncounted t.history = uncounted s.history) :
    Recalled a user compared pending t :=
  ⟨hdb ▸ h.row, hcompared.trans h.compared, huncounted.trans h.pending⟩

/-- What the row counts is what there is to count. -/
theorem Recalled.counted (h : Recalled a user compared [] s) (hsound : Sound G a steady s) :
    Counted steady (G.tryCount user) (G.lockedUntil user) compared s.clock := by
  obtain ⟨user', hrow, -, hcounted⟩ := hsound.row
  cases hrow.byId.symm.trans h.row.byId
  exact h.compared ▸ hcounted h.pending

variable (a steady i user compared pending) in
/-- What thread `i` knows as long as it is up to date. -/
def Recalls (s : Timeline) : Prop :=
  steady ∨ ReadingHolds i s.history = true → Recalled a user compared pending s

theorem Recalls.apart (h : Recalls a steady i user compared pending s) (ht : Apart i s t)
    (hstill : steady → t = s) : Recalls a steady i user compared pending t := by
  rintro (hs | hi)
  · rw [hstill hs]
    exact h (.inl hs)
  · obtain ⟨hi', hdb, hcompared, huncounted⟩ := ht.kept hi
    exact (h (.inr hi')).of_eq hdb hcompared huncounted

/-- The time has gone on, not more than the checks allow for. -/
structure Passes (steady : Prop) (s t : Timeline) : Prop where
  later : s.clock ≤ t.clock
  still : steady → t.clock = s.clock

theorem Passes.trans (h : Passes steady s t) (h' : Passes steady t u) : Passes steady s u where
  later := h.later.trans h'.later
  still hs := (h'.still hs).trans (h.still hs)

theorem Passes.of_careful {c : Cmd} {ch : Choice} (h : Careful steady i c ch s)
    (hc : c.readsUser = false) (ht : t.clock = max s.clock ch.time) : Passes steady s t where
  later := ht ▸ le_max_left _ _
  still hs := ht.trans (max_eq_left (h.still hs hc))

variable (P config G a steady i) in
/-- What the rules below use of a discipline: the checks are careful, and what the other
threads do leaves a thread alone that is up to date. -/
structure Suits (D : RelyGuarantee signature Timeline C) (call : C) : Prop where
  step : ∀ {c s r t}, D.Step call i c s r t →
    ∃ ch, Careful steady i c ch s ∧ Timeline.exec P config i c ch s = some (r, t)
  inv : ∀ {s}, D.Inv s ↔ Sound G a steady s
  rely : ∀ {s t}, D.Rely i s t → Apart i s t ∧ (steady → t = s)
  guar : ∀ {s t}, (∀ j, j ≠ i → Apart j s t) → D.Guar i s t
  demand : ∀ {c s}, (steady → Unlocked G a c s) → D.Demand i c s

namespace Suits

variable {D : RelyGuarantee signature Timeline C} (hD : Suits P config G a steady i D call)

include hD

/-- The rule of a single command. -/
theorem wp_command {c : Cmd} {Q : c.Resp → Timeline → Prop}
    (hfree : ∀ t, steady → t = s → Unlocked G a c t)
    (h : ∀ t ch r u, Sound G a steady t → Apart i s t → (steady → t = s) →
      Careful steady i c ch t → Timeline.exec P config i c ch t = some (r, u) →
      Sound G a steady u ∧ (∀ j, j ≠ i → Apart j t u) ∧ ∀ b, r = .ok b → Q b u) :
    D.wp call i (perform c) Q (fun _ _ => True) s := by
  refine RelyGuarantee.wp_perform (fun t _ hrely => ?_) (fun t u b ht hrely hstep => ?_)
    fun t u e ht hrely hstep => ?_
  · exact hD.demand fun hs => hfree t hs ((hD.rely hrely).2 hs)
  all_goals
    obtain ⟨ch, hcareful, hexec⟩ := hD.step hstep
    obtain ⟨hapart, hstill⟩ := hD.rely hrely
    obtain ⟨hu, hothers, hQ⟩ := h t ch _ u (hD.inv.mp ht) hapart hstill hcareful hexec
  · exact ⟨hD.inv.mpr hu, hD.guar hothers, hQ b rfl⟩
  · exact ⟨hD.inv.mpr hu, hD.guar hothers, trivial⟩

omit hD in
/-- What a command that does not act on the user leaves alone. -/
theorem idle {c : Cmd} {ch : Choice} {r : Except Err c.Resp} (hquiet : c.quiet = true)
    (hacts : c.actsOnUser = false) (ht : Sound G a steady t)
    (h : Timeline.exec P config i c ch t = some (r, u)) :
    Sound G a steady u ∧ (∀ j, j ≠ i → Apart j t u) ∧ u.clock = max t.clock ch.time ∧
      (u.db = t.db ∧ u.compared = t.compared ∧ uncounted u.history = uncounted t.history) ∧
      ∃ took, u.history = ⟨i, c, r, took⟩ :: t.history ∧ ∀ b, r = .ok b → took = true ∧
        ∃ w, World.perform P config i c ch (t.advance ch.time) = some (.ok b, w) := by
  obtain ⟨hclock, hcompared, hdb, took, hhistory, hok⟩ := Timeline.exec_quiet hquiet h
  have hlater : t.clock ≤ u.clock := hclock ▸ le_max_left _ _
  have hcompared : u.compared = t.compared := by
    rw [hcompared]
    cases c <;> first | rfl | cases hacts
  have huncounted : uncounted u.history = uncounted t.history := by
    rw [hhistory]
    refine uncounted_of_not_act (by simp [hacts]) fun hwrong => ?_
    cases c <;> first | cases hwrong | cases hacts
  exact ⟨ht.of_eq hdb hcompared huncounted hlater,
    fun j hj => .of_step hlater hhistory hj.symm fun _ => ⟨hdb, hcompared, huncounted⟩, hclock,
    ⟨hdb, hcompared, huncounted⟩, took, hhistory, hok⟩

/-- A command after which nothing has to be known. -/
theorem wp_any {c : Cmd} {Q : c.Resp → Timeline → Prop} (hquiet : c.quiet = true)
    (hacts : c.actsOnUser = false) (hQ : ∀ b u, Q b u) :
    D.wp call i (perform c) Q (fun _ _ => True) s := by
  refine hD.wp_command (fun _ _ _ _ _ hc => by subst hc; cases hacts)
    fun t ch r u ht _ _ _ hexec => ?_
  obtain ⟨hu, hothers, -⟩ := idle hquiet hacts ht hexec
  exact ⟨hu, hothers, fun b _ => hQ b u⟩

/-- A command that only looks. -/
theorem wp_look {c : Cmd} {Q : c.Resp → Timeline → Prop} (hquiet : c.quiet = true)
    (hacts : c.actsOnUser = false) (hread : c.readsUser = false)
    (h : Recalls a steady i user compared pending s)
    (hQ : ∀ ch b (t : Timeline) w (u : Timeline), World.perform P config i c ch (t.advance ch.time) = some (.ok b, w) →
      u.clock = max t.clock ch.time → Recalls a steady i user compared pending u →
      Passes steady s u → Q b u) :
    D.wp call i (perform c) Q (fun _ _ => True) s := by
  refine hD.wp_command (fun _ _ _ _ _ hc => by subst hc; cases hacts)
    fun t ch r u ht hapart hstill hcareful hexec => ?_
  obtain ⟨hu, hothers, hclock, ⟨hdb, hcompared, huncounted⟩, took, hhistory, hok⟩ :=
    idle hquiet hacts ht hexec
  refine ⟨hu, hothers, fun b hb => ?_⟩
  obtain ⟨-, w, hp⟩ := hok b hb
  have ht' := h.apart hapart hstill
  have hpass : Passes steady s t := ⟨hapart.later, fun hs => congrArg Timeline.clock (hstill hs)⟩
  refine hQ ch b t w u hp hclock
    (fun hup => (ht' (hup.imp_right fun hup => ?_)).of_eq hdb hcompared huncounted)
    (hpass.trans (.of_careful hcareful hread hclock))
  rw [hhistory] at hup
  simpa [ReadingHolds, hread, hacts] using hup

/-- The row is read. -/
theorem wp_read {qy : Query} {Q : qy.Result → Timeline → Prop}
    (hread : (Cmd.select .pool qy).readsUser = true)
    (hQ : ∀ u, Sound G a steady u →
      (∀ user, a.Row u.db user → Recalls a steady i user u.compared [] u) → Q (qy.run u.db) u) :
    D.wp call i (select .pool qy) Q (fun _ _ => True) s := by
  refine hD.wp_command (fun _ _ _ _ _ hc => by cases hc) fun t ch r u ht _ _ hcareful hexec => ?_
  obtain ⟨hu, hothers, -, ⟨hdb, -, huncounted⟩, took, -, hok⟩ := idle rfl rfl ht hexec
  refine ⟨hu, hothers, fun b hb => ?_⟩
  obtain ⟨-, w, hp⟩ := hok b hb
  cases hp
  have hrun : qy.run (t.advance ch.time).db = qy.run u.db := congrArg qy.run hdb.symm
  show Q (qy.run (t.advance ch.time).db) u
  rw [hrun]
  exact hQ u hu fun user hrow _ => ⟨hrow, rfl, huncounted.trans (hcareful.begins hread)⟩

/-- The clock is read. -/
theorem wp_now (h : Recalls a steady i user compared pending s) {Q : ℕ → Timeline → Prop}
    (hQ : ∀ u, Recalls a steady i user compared pending u → Passes steady s u → Q u.clock u) :
    D.wp call i (perform .now) Q (fun _ _ => True) s := by
  refine hD.wp_look rfl rfl rfl h fun ch b t w u hp hclock hu hpass => ?_
  cases hp
  have hnow : max (t.advance ch.time).clock ch.time = u.clock := by
    show max (max t.clock ch.time) ch.time = _
    rw [max_assoc, max_self, hclock]
  show Q (max (t.advance ch.time).clock ch.time) u
  rw [hnow]
  exact hQ u hu hpass

theorem wp_bcryptHash {password : String} (h : Recalls a steady i user compared pending s)
    {Q : String → Timeline → Prop}
    (hQ : ∀ hash u, Recalls a steady i user compared pending u → Q hash u) :
    D.wp call i (perform (.bcryptHash password)) Q (fun _ _ => True) s :=
  hD.wp_look rfl rfl rfl h fun _ hash _ _ u _ _ hu _ => hQ hash u hu

/-- A secret is compared. -/
theorem wp_bcryptCompare {secret hash : String} (h : Recalls a steady i user compared [] s)
    (hfree : ∀ l, G.lockedUntil user = some l → l ≤ s.clock) {Q : Bool → Timeline → Prop}
    (hQ : ∀ u right, Counted steady (G.tryCount user) (G.lockedUntil user) compared u.clock →
      Passes steady s u →
      Recalls a steady i user (⟨u.clock, right⟩ :: compared) (if right then [] else [i]) u →
      Q right u) :
    D.wp call i (perform (.bcryptCompare secret hash)) Q (fun _ _ => True) s := by
  refine hD.wp_command (fun t hs ht _ _ _ user' hrow' => ?_)
    fun t ch r u ht hapart hstill hcareful hexec => ?_
  · subst ht
    cases (h (.inl hs)).row.byId.symm.trans hrow'.byId
    exact hfree
  obtain ⟨hclock, hcompared, hdb, took, hhistory, hok⟩ := Timeline.exec_quiet rfl hexec
  -- a comparison does not leave the process
  obtain ⟨right, rfl⟩ : ∃ right : Bool, r = .ok right := by
    obtain ⟨-, -, ⟨hf, -⟩ | ⟨r', w, hp, -, rfl | ⟨hf, -⟩, -⟩⟩ := Timeline.exec_eq_some hexec
    · cases hf
    · cases hp
      exact ⟨_, rfl⟩
    · cases hf
  obtain ⟨rfl, -⟩ := hok right rfl
  have hrecalled := h.apart hapart hstill (hcareful.acts rfl)
  have hlater : t.clock ≤ u.clock := hclock ▸ le_max_left _ _
  have hcounted := (hrecalled.counted ht).later hlater
  have hpass : Passes steady s u :=
    (⟨hapart.later, fun hs => congrArg Timeline.clock (hstill hs)⟩ : Passes steady s t).trans
      (.of_careful hcareful rfl hclock)
  have hcompared : u.compared = ⟨u.clock, right⟩ :: compared := by
    rw [hcompared, hrecalled.compared]
    rfl
  have huncounted : uncounted u.history = if right then [] else [i] := by
    rw [hhistory, uncounted, hrecalled.pending]
    cases right <;> rfl
  have hrow : a.Row u.db user := hdb ▸ hrecalled.row
  refine ⟨?_, fun j hj => .of_step hlater hhistory hj.symm fun hidle => absurd ⟨rfl, rfl⟩ hidle, ?_⟩
  · cases right with
    | true => exact (hcompared ▸ hcounted.unchanged).sound hrow
    | false =>
        have hgap := hcounted.gap fun l hl => (hfree l hl).trans hpass.later
        exact ⟨hcompared ▸ hcounted.spaced.wrong hgap, user, hrow, hcounted.row,
          fun hnil => by rw [huncounted] at hnil; cases hnil⟩
  · intro b hb
    cases hb
    exact hQ u right hcounted hpass fun _ => ⟨hrow, hcompared, huncounted⟩

/-- The row is updated, which counts what there is to count. -/
theorem wp_update {data : UserUpdate} (h : Recalls a steady i user compared pending s)
    (hpending : ∀ j ∈ pending, j = i)
    (hcounted : ∀ t, Sound G a steady t → Recalled a user compared pending t → Passes steady s t →
      Counted steady (G.tryCount (user.patch data)) (G.lockedUntil (user.patch data)) compared
        t.clock)
    {Q : User → Timeline → Prop}
    (hQ : ∀ row u, Recalls a steady i (user.patch data) compared [] u → Passes steady s u → Q row u) :
    D.wp call i (write .pool (.updateUser a.id data)) Q (fun _ _ => True) s := by
  refine hD.wp_command (fun _ _ _ _ _ hc => by cases hc)
    fun t ch r u ht hapart hstill hcareful hexec => ?_
  have hrecalled := h.apart hapart hstill (hcareful.acts rfl)
  have hpass : Passes steady s t := ⟨hapart.later, fun hs => congrArg Timeline.clock (hstill hs)⟩
  obtain ⟨hclock, hcompared, ⟨⟨e, rfl⟩, hdb, hhistory⟩ | ⟨hdb, hhistory⟩⟩ :=
    Timeline.exec_updateUser hexec
  · have hlater : t.clock ≤ u.clock := hclock ▸ le_max_left _ _
    have huncounted : uncounted u.history = uncounted t.history := by
      rw [hhistory]
      exact uncounted_of_not_act (by simp) fun hwrong => by cases hwrong
    exact ⟨ht.of_eq hdb hcompared huncounted hlater,
      fun j hj => .of_step hlater hhistory hj.symm fun _ => ⟨hdb, hcompared, huncounted⟩,
      fun b hb => by cases hb⟩
  · have hlater : t.clock ≤ u.clock := hclock ▸ le_max_left _ _
    have hrow : a.Row u.db (user.patch data) := hdb ▸ hrecalled.row.update data
    have hnow := (hcounted t ht hrecalled hpass).later hlater
    have hcompared : u.compared = compared := hcompared.trans hrecalled.compared
    have huncounted : uncounted u.history = [] := by
      rw [hhistory, uncounted, hrecalled.pending]
      refine List.filter_eq_nil_iff.mpr fun j hj => ?_
      simpa using hpending j hj
    refine ⟨(hcompared ▸ hnow).sound hrow,
      fun j hj => .of_step hlater hhistory hj.symm fun hidle => absurd ⟨rfl, rfl⟩ hidle,
      fun b _ => hQ b u (fun _ => ⟨hrow, hcompared, huncounted⟩)
        (hpass.trans (.of_careful hcareful rfl hclock))⟩

/-! ### The check -/

open AuthCredentialService

theorem wp_assertNotLocked {lockedUntil : Option ℕ} (h : Recalls a steady i user compared [] s)
    {Q : Unit → Timeline → Prop}
    (hQ : ∀ u, Recalls a steady i user compared [] u → Passes steady s u →
      (∀ l, lockedUntil = some l → l ≤ u.clock) → Q () u) :
    D.wp call i (assertNotLocked lockedUntil) Q (fun _ _ => True) s := by
  cases lockedUntil with
  | none => exact RelyGuarantee.wp_ret (hQ s h ⟨le_rfl, fun _ => rfl⟩ nofun)
  | some l =>
      refine RelyGuarantee.wp_bind (hD.wp_now h fun t ht hpass => ?_)
      by_cases hlt : t.clock < l
      · rw [if_pos hlt]
        exact RelyGuarantee.wp_bind (hD.wp_now ht fun _ _ _ => RelyGuarantee.wp_fail trivial)
      · rw [if_neg hlt]
        refine RelyGuarantee.wp_ret (hQ t ht hpass fun l' hl' => ?_)
        cases hl'
        exact not_lt.mp hlt

theorem wp_lockUntilIfMaxed {attempts : ℕ} (h : Recalls a steady i user compared pending s)
    {Q : Option ℕ → Timeline → Prop}
    (hQ : ∀ u, Recalls a steady i user compared pending u → Passes steady s u →
      Q (Counted.lockAfter attempts u.clock) u) :
    D.wp call i (lockUntilIfMaxed attempts) Q (fun _ _ => True) s := by
  unfold lockUntilIfMaxed
  by_cases hmax : MAX_AUTH_TRIES ≤ attempts
  · rw [if_pos hmax]
    refine RelyGuarantee.wp_bind (hD.wp_now h fun t ht hpass => RelyGuarantee.wp_ret ?_)
    have hlock := hQ t ht hpass
    rwa [Counted.lockAfter, if_pos hmax] at hlock
  · rw [if_neg hmax]
    have hlock := hQ s h ⟨le_rfl, fun _ => rfl⟩
    rw [Counted.lockAfter, if_neg hmax] at hlock
    exact RelyGuarantee.wp_ret hlock

theorem wp_lockExpired {lockedUntil : Option ℕ} (h : Recalls a steady i user compared [] s)
    {Q : Bool → Timeline → Prop}
    (hQ : ∀ u, Recalls a steady i user compared [] u → Passes steady s u →
      Q (lockedUntil.any (· ≤ u.clock)) u) :
    D.wp call i (lockExpired lockedUntil) Q (fun _ _ => True) s := by
  cases lockedUntil with
  | none => exact RelyGuarantee.wp_ret (hQ s h ⟨le_rfl, fun _ => rfl⟩)
  | some l =>
      exact RelyGuarantee.wp_bind (hD.wp_now h fun t ht hpass =>
        RelyGuarantee.wp_ret (hQ t ht hpass))

variable {secret hash invalidMessage : String}

/-- The comparison and what follows from it, for a lock that has not run out. -/
theorem wp_compare {n : ℕ} {l : Option ℕ} (h : Recalls a steady i user compared [] s)
    (hn : G.tryCount user = n) (hl : G.lockedUntil user = l)
    (hlate : steady → ∀ lockedUntil, l = some lockedUntil → s.clock < lockedUntil) :
    D.wp call i
      (checkSecret.compare secret hash (write .pool (.updateUser a.id (G.update 0 none)))
        (fun n l => write .pool (.updateUser a.id (G.update n l))) invalidMessage n l)
      (fun _ u => ∃ user compared, Recalls a steady i user compared [] u) (fun _ _ => True) s := by
  subst hn hl
  refine RelyGuarantee.wp_bind (hD.wp_assertNotLocked h fun t ht hpass hfree => ?_)
  -- if the clock stands still, only a row without a lock gets here
  have hnone : steady → G.lockedUntil user = none := by
    intro hs
    cases hl : G.lockedUntil user with
    | none => rfl
    | some l =>
        have hlt := hlate hs l hl
        have hle := hfree l hl
        have hstill := hpass.still hs
        omega
  refine RelyGuarantee.wp_bind (hD.wp_bcryptCompare ht hfree fun u right hcounted hpass' hu => ?_)
  cases right with
  | true =>
      rw [if_pos rfl]
      by_cases hclear : 0 < G.tryCount user ∨ (G.lockedUntil user).isSome = true
      · rw [if_pos hclear]
        refine RelyGuarantee.wp_bind (hD.wp_update hu nofun (fun v _ _ hlater => ?_)
          fun row x hx _ => RelyGuarantee.wp_ret ⟨_, _, hx⟩)
        rw [G.tryCount_patch, G.lockedUntil_patch]
        exact hcounted.right.later hlater.later
      · rw [if_neg hclear]
        exact RelyGuarantee.wp_ret ⟨_, _, hu⟩
  | false =>
      rw [if_neg (by decide)]
      refine RelyGuarantee.wp_bind (hD.wp_lockUntilIfMaxed hu fun v hv hpass₁ => ?_)
      refine RelyGuarantee.wp_bind (hD.wp_update hv (by simp) (fun x _ _ hlater => ?_)
        fun _ _ _ _ => RelyGuarantee.wp_fail trivial)
      rw [G.tryCount_patch, G.lockedUntil_patch]
      have hfree' : ∀ l, G.lockedUntil user = some l → l ≤ u.clock :=
        fun l hl => (hfree l hl).trans hpass'.later
      exact (hcounted.wrong hfree' hnone hpass₁.later).later hlater.later

/-- A check of a secret, with the columns that have been read. -/
theorem wp_checkSecret (h : Recalls a steady i user compared [] s) :
    D.wp call i
      (checkSecret secret hash (G.tryCount user) (G.lockedUntil user)
        (write .pool (.updateUser a.id (G.update 0 none)))
        (fun n l => write .pool (.updateUser a.id (G.update n l))) invalidMessage)
      (fun _ u => ∃ user compared, Recalls a steady i user compared [] u) (fun _ _ => True) s := by
  refine RelyGuarantee.wp_bind (hD.wp_lockExpired h fun t ht hpass => ?_)
  by_cases hexpired : (G.lockedUntil user).any (· ≤ t.clock) = true
  · obtain ⟨l, hl, hle⟩ := (Option.any_eq_true ..).mp hexpired
    rw [if_pos hexpired]
    refine RelyGuarantee.wp_bind (hD.wp_update ht nofun (fun u hu hrecalled hlater => ?_)
      fun row u hu _ => hD.wp_compare hu (G.tryCount_patch _ _ _) (G.lockedUntil_patch _ _ _)
        fun _ => nofun)
    rw [G.tryCount_patch, G.lockedUntil_patch]
    have hcounted := hrecalled.counted hu
    rw [hl] at hcounted
    exact hcounted.expired ((of_decide_eq_true hle).trans hlater.later)
  · rw [if_neg hexpired]
    refine hD.wp_compare ht rfl rfl fun _ l hl => not_le.mp fun hle => hexpired ?_
    rw [hl]
    exact decide_eq_true hle

end Suits

/-! ### The checks of the services -/

/-- A check of the PIN of the account. -/
theorem wp_verifyPinOrThrow {D : RelyGuarantee signature Timeline C}
    (hD : Suits P config pinGuard a steady i D call) {pin : String} :
    D.wp call i (AuthCredentialService.verifyPinOrThrow a.id pin) (fun _ _ => True)
      (fun _ _ => True) s := by
  refine RelyGuarantee.wp_bind (hD.wp_read rfl fun t ht hrecalls => ?_)
  refine RelyGuarantee.wp_bind (Policy.wp_orThrow (fun _ => trivial) fun user hfound => ?_)
  refine RelyGuarantee.wp_bind (Policy.wp_throwIf (fun _ => trivial) fun _ => ?_)
  obtain ⟨user', hrow, -⟩ := ht.row
  obtain rfl : user' = user := Option.some.inj (hrow.byId.symm.trans hfound)
  rw [hrow.id]
  exact RelyGuarantee.wp_mono (fun _ _ _ => trivial) (fun _ _ he => he) _
    (hD.wp_checkSecret (hrecalls user' hrow))

section Password

variable {D : RelyGuarantee signature Timeline C}
  (hD : Suits P config passwordGuard a steady i D call)

include hD

theorem wp_verifyPasswordOrThrow {password invalidMessage : String} (hrow : a.Row t.db user)
    (h : Recalls a steady i user compared [] t) :
    D.wp call i (AuthCredentialService.verifyPasswordOrThrow user password invalidMessage)
      (fun _ u => ∃ user compared, Recalls a steady i user compared [] u) (fun _ _ => True) t := by
  unfold AuthCredentialService.verifyPasswordOrThrow
  rw [hrow.id]
  exact hD.wp_checkSecret h

/-- A login to the account. -/
theorem wp_login {dto : LoginDto} (hemail : P.toLowerCase (trim dto.email) ∈ a.emails) :
    D.wp call i (AuthService.login P dto) (fun _ _ => True) (fun _ _ => True) s := by
  refine RelyGuarantee.wp_bind (hD.wp_read rfl fun t ht hrecalls => ?_)
  refine RelyGuarantee.wp_bind (Policy.wp_orThrow (fun _ => trivial) fun user hfound => ?_)
  obtain ⟨user', hrow, -⟩ := ht.row
  obtain rfl : user' = user := Option.some.inj ((hrow.byEmail _ hemail).symm.trans hfound)
  refine RelyGuarantee.wp_bind (RelyGuarantee.wp_mono (fun _ u _ => ?_) (fun _ _ he => he) _
    (wp_verifyPasswordOrThrow hD hrow (hrecalls user' hrow)))
  refine RelyGuarantee.wp_bind (hD.wp_any rfl rfl fun wallet v => ?_)
  exact RelyGuarantee.wp_bind (Policy.wp_orThrow (fun _ => trivial) fun _ _ =>
    RelyGuarantee.wp_ret trivial)

/-- A request to create the PIN of the account, which checks the password first. -/
theorem wp_createPin {actor : JwtPayloadUser} {dto : CreatePinDto} (hactor : actor.userId = a.id) :
    D.wp call i (AuthService.createPin actor dto) (fun _ _ => True) (fun _ _ => True) s := by
  refine RelyGuarantee.wp_bind (Policy.wp_throwIf (fun _ => trivial) fun _ => ?_)
  refine RelyGuarantee.wp_bind (hD.wp_read rfl fun t ht hrecalls => ?_)
  refine RelyGuarantee.wp_bind (Policy.wp_orThrow (fun _ => trivial) fun user hfound => ?_)
  refine RelyGuarantee.wp_bind (Policy.wp_throwIf (fun _ => trivial) fun _ => ?_)
  rw [hactor] at hfound
  obtain ⟨user', hrow, -⟩ := ht.row
  obtain rfl : user' = user := Option.some.inj (hrow.byId.symm.trans hfound)
  have hid := hrow.id
  refine RelyGuarantee.wp_bind (RelyGuarantee.wp_mono (fun _ u hu => ?_) (fun _ _ he => he) _
    (wp_verifyPasswordOrThrow hD hrow (hrecalls user' hrow)))
  obtain ⟨user₁, compared₁, hu⟩ := hu
  rw [hid]
  refine RelyGuarantee.wp_bind (hD.wp_bcryptHash hu fun hash v hv => ?_)
  -- the PIN is set, and the columns of the password stay
  have hcounted (x : Timeline) (hx : Sound passwordGuard a steady x)
      (hrecalled : Recalled a user₁ compared₁ [] x) (_ : Passes steady v x) :
      Counted steady
        (passwordGuard.tryCount (user₁.patch
          { pinHash := some hash, pinTryCount := some 0, pinLockedUntil := some none }))
        (passwordGuard.lockedUntil (user₁.patch
          { pinHash := some hash, pinTryCount := some 0, pinLockedUntil := some none }))
        compared₁ x.clock :=
    hrecalled.counted hx
  exact RelyGuarantee.wp_bind (hD.wp_update hv nofun hcounted fun _ _ _ _ =>
    RelyGuarantee.wp_ret trivial)

end Password

/-! ### The disciplines -/

/-- Any number of checks at once: every step of one leaves alone the others that stay up to
date. -/
def overlapping (A : Assumptions (timed P config serve)) (G : Guard) (a : Account) :
    RelyGuarantee signature Timeline C where
  Step call i c s r t := ∃ ch, A.allows call i c ch s ∧ Timeline.exec P config i c ch s = some (r, t)
  Inv := Sound G a False
  Guar i s t := ∀ j, j ≠ i → Apart j s t
  Demand _ _ _ := True

theorem Suits.overlapping {A : Assumptions (timed P config serve)}
    (hA : ∀ call i c ch s, A.allows call i c ch s → Careful False i c ch s) :
    Suits P config G a False i (overlapping A G a) call where
  step h := by
    obtain ⟨ch, ha, he⟩ := h
    exact ⟨ch, hA _ _ _ _ _ ha, he⟩
  inv := Iff.rfl
  rely h := ⟨h.lift (Apart i) .refl .trans fun hj _ _ hg => hg i hj.symm, False.elim⟩
  guar h := h
  demand _ := trivial

/-- One check at a time. -/
theorem Suits.sole {A : Assumptions (timed P config serve)}
    (hA : ∀ call i c ch s, A.allows call i c ch s → Careful True i c ch s) :
    Suits P config G a True i (sole A i (Sound G a True) (Unlocked G a)) call where
  step h := by
    obtain ⟨ch, ha, he⟩ := h
    exact ⟨ch, hA _ _ _ _ _ ha, he⟩
  inv := Iff.rfl
  rely h := by
    have heq := Sole.eq_of_rely h
    subst heq
    exact ⟨.refl _, fun _ => rfl⟩
  guar _ := rfl
  demand h := h trivial

/-- In every run whose checks are careful, the row counts the comparisons. -/
theorem sound_of_reachable {A : Assumptions (timed P config serve)}
    (hA : ∀ call i c ch s, A.allows call i c ch s → Careful False i c ch s)
    (hcall : ∀ {call i s}, A.admits call → Suits P config G a False i (overlapping A G a) call →
      (overlapping A G a).wp call i (serve call) (fun _ _ => True) (fun _ _ => True) s)
    {cfg : Machine.Config (timed P config serve)} (hs : Sound G a False s)
    (h : Reachable A s cfg) : Sound G a False cfg.state := by
  have hcertified : Certified (timed P config serve) A s (overlapping A G a)
      (fun _ _ _ _ => True) (fun _ _ _ _ => True) :=
    { initial := hs
      covers := fun _ _ ha he => ⟨_, ha, he⟩
      crash := fun _ ht => ⟨Sound.crash ht, fun j _ => ⟨le_rfl, fun hup => ⟨hup, rfl, rfl, rfl⟩⟩⟩
      call := fun ha _ => hcall ha (.overlapping hA) }
  exact hcertified.inv h

end Checks

/-! ### PINs -/

/-- A user with the PIN `1234`, which the platform keeps as it is. -/
def userWithPin : User where
  id := "u1"
  email := "ada"
  username := "ada"
  firstName := "ada"
  lastName := "ada"
  passwordHash := "password"
  passwordTryCount := 0
  passwordLockedUntil := none
  pinHash := some "1234"
  pinTryCount := 0
  pinLockedUntil := none

def worldOf (user : User) : World := { World.initial with store := .ofDb { Db.empty with users := [user] } }

section Pins

variable (P : Platform) (config : Config) (userId : String)

/-- Any number of checks of the PIN of one user. -/
abbrev pinChecks : Machine := timed P config (AuthCredentialService.verifyPinOrThrow userId)

/-- A check reads the row only when every wrong comparison has been counted, and compares
and writes only while no other check has compared or written since it read the row. -/
def pinsInOrder : Assumptions (pinChecks P config userId) where
  admits _ := True
  allows _ i c _ s := (c.readsUser = true → uncounted (Timeline.history s) = []) ∧
    (c.actsOnUser = true → ReadingHolds i (Timeline.history s) = true)

instance : DecidablePred (pinsInOrder P config userId).admits :=
  fun _ => inferInstanceAs (Decidable True)

instance : ∀ call i c ch s, Decidable ((pinsInOrder P config userId).allows call i c ch s) :=
  fun _ i c _ s => inferInstanceAs (Decidable
    ((Cmd.readsUser c = true → uncounted (Timeline.history s) = []) ∧
      (Cmd.actsOnUser c = true → ReadingHolds i (Timeline.history s) = true)))

variable {P config userId}

/-- If the checks of the PIN of a user are made in order, at most three wrong PINs are
compared within less than the time of a lock. -/
theorem wrongPins_limited {w : World} {user : User} (huser : w.db.user userId = some user)
    (hconsistent : pinGuard.Consistent user)
    {cfg : Machine.Config (pinChecks P config userId)}
    (h : Reachable (pinsInOrder P config userId) ⟨w, []⟩ cfg) :
    Limited (Timeline.compared cfg.state) := by
  let a : Account := ⟨userId, []⟩
  have hrow : a.Row w.db user := ⟨huser, nofun⟩
  have hcareful (call : String) (i : ℕ) (c : Cmd) (ch : Choice) (s : Timeline)
      (ha : (pinsInOrder P config userId).allows call i c ch s) : Careful False i c ch s :=
    ⟨ha.1, fun hc => .inr (ha.2 hc), False.elim⟩
  have hinitial : Sound pinGuard a False ⟨w, []⟩ := hconsistent.sound hrow
  have hsound := sound_of_reachable hcareful (fun _ hD => wp_verifyPinOrThrow hD) hinitial h
  exact hsound.spaced.limited

theorem userWithPin_consistent : pinGuard.Consistent userWithPin :=
  ⟨Nat.zero_le _, by decide⟩

/-- Two checks have read the row, one of them compares and counts, and the other one is
stopped. The third wrong PIN locks; a check under the lock compares nothing, one after it
does. -/
def guessesInOrder : List (Action (pinChecks Schedule.platform Schedule.mockConfig "u1")) :=
  [.spawn 0 "0000", .spawn 1 "1111", .step 0 {}, .step 1 {}, .step 0 {}, .step 0 {}, .crash 1,
    .spawn 2 "2222", .step 2 {}, .step 2 {}, .step 2 {},
    .spawn 3 "3333", .step 3 {}, .step 3 {}, .step 3 {}, .step 3 {},
    .spawn 4 "1234", .step 4 {}, .step 4 {}, .step 4 {}, .step 4 {},
    .spawn 5 "5555", .step 5 { time := AUTH_LOCK_MS }, .step 5 {}, .step 5 {}, .step 5 {},
      .step 5 {}]

theorem wrongPins_limited_schedule :
    ∃ cfg, Machine.replayUnder (pinsInOrder Schedule.platform Schedule.mockConfig "u1")
        (.initial ⟨worldOf userWithPin, []⟩) guessesInOrder = some cfg ∧
      Timeline.compared cfg.state = [⟨AUTH_LOCK_MS, false⟩, ⟨0, false⟩, ⟨0, false⟩, ⟨0, false⟩] ∧
      Limited (Timeline.compared cfg.state) := by
  have hrun : (Machine.replayUnder (pinsInOrder Schedule.platform Schedule.mockConfig "u1")
      (.initial ⟨worldOf userWithPin, []⟩) guessesInOrder).any fun cfg =>
      Timeline.compared cfg.state =
        [⟨AUTH_LOCK_MS, false⟩, ⟨0, false⟩, ⟨0, false⟩, ⟨0, false⟩] := by decide +kernel
  obtain ⟨cfg, hcfg, hcompared⟩ := (Option.any_eq_true ..).mp hrun
  exact ⟨cfg, hcfg, of_decide_eq_true hcompared,
    wrongPins_limited rfl userWithPin_consistent (.replayUnder hcfg)⟩

/-- Nothing is asked of the checks. -/
def pinsAtOnce : Assumptions (pinChecks P config userId) := .calls fun _ => True

instance : DecidablePred (pinsAtOnce : Assumptions (pinChecks P config userId)).admits :=
  fun _ => inferInstanceAs (Decidable True)

instance : ∀ call i c ch s,
    Decidable ((pinsAtOnce : Assumptions (pinChecks P config userId)).allows call i c ch s) :=
  fun _ _ _ _ _ => inferInstanceAs (Decidable True)

/-- Four checks read the row before any of them writes to it. -/
def fourGuesses : List (Action (pinChecks Schedule.platform Schedule.mockConfig "u1")) :=
  [.spawn 0 "0000", .spawn 1 "1111", .spawn 2 "2222", .spawn 3 "3333",
    .step 0 {}, .step 1 {}, .step 2 {}, .step 3 {}, .step 0 {}, .step 1 {}, .step 2 {}, .step 3 {}]

/-- All four wrong PINs are compared in one moment, although nothing fails. -/
theorem four_wrong_pins :
    ∃ cfg, Machine.replayUnder pinsAtOnce (.initial ⟨worldOf userWithPin, []⟩) fourGuesses =
        some cfg ∧ ¬Limited (Timeline.compared cfg.state) := by
  have hrun : (Machine.replayUnder pinsAtOnce (.initial ⟨worldOf userWithPin, []⟩) fourGuesses).any
      fun cfg => Timeline.compared cfg.state = List.replicate 4 ⟨0, false⟩ := by decide +kernel
  obtain ⟨cfg, hcfg, h⟩ := (Option.any_eq_true ..).mp hrun
  have hcompared : Timeline.compared cfg.state = List.replicate 4 ⟨0, false⟩ := of_decide_eq_true h
  refine ⟨cfg, hcfg, fun hlimited => ?_⟩
  rw [hcompared] at hlimited
  have hlength := hlimited [] (List.replicate 4 ⟨0, false⟩) [] rfl (by decide) (by decide)
  exact absurd hlength (by decide)

end Pins

/-! ### Passwords -/

section Passwords

variable (P : Platform) (config : Config) (a : Account)

/-- The services of the API at moments of time. -/
abbrev passwordChecks : Machine := timed P config (program P config)

/-- The requests that check the password of the account. -/
def Account.checks : Call → Bool
  | .login dto => P.toLowerCase (trim dto.email) ∈ a.emails
  | .createPin actor _ => actor.userId = a.id
  | _ => false

/-- The password of the account is checked, and the clock is read once per check, at its
beginning. -/
def passwordsInTime : Assumptions (passwordChecks P config) where
  admits call := a.checks P call = true
  allows _ _ c ch s := c.readsUser = false → Choice.time ch ≤ Timeline.clock s

/-- Besides, no check begins before every wrong comparison has been counted. -/
def passwordsCounted : Assumptions (passwordChecks P config) where
  admits call := a.checks P call = true
  allows _ _ c ch s := (c.readsUser = true → uncounted (Timeline.history s) = []) ∧
    (c.readsUser = false → Choice.time ch ≤ Timeline.clock s)

instance : DecidablePred (passwordsInTime P config a).admits :=
  fun call => inferInstanceAs (Decidable (a.checks P call = true))

instance : ∀ call i c ch s, Decidable ((passwordsInTime P config a).allows call i c ch s) :=
  fun _ _ c ch s => inferInstanceAs (Decidable
    (Cmd.readsUser c = false → Choice.time ch ≤ Timeline.clock s))

instance : DecidablePred (passwordsCounted P config a).admits :=
  fun call => inferInstanceAs (Decidable (a.checks P call = true))

instance : ∀ call i c ch s, Decidable ((passwordsCounted P config a).allows call i c ch s) :=
  fun _ _ c ch s => inferInstanceAs (Decidable
    ((Cmd.readsUser c = true → uncounted (Timeline.history s) = []) ∧
      (Cmd.readsUser c = false → Choice.time ch ≤ Timeline.clock s)))

variable {P config a}

theorem wp_passwordCheck {D : RelyGuarantee signature Timeline Call} {call : Call} {i : ℕ}
    {s : Timeline} {steady : Prop} (hD : Suits P config passwordGuard a steady i D call)
    (hcall : a.checks P call = true) :
    D.wp call i (program P config call) (fun _ _ => True) (fun _ _ => True) s := by
  cases call with
  | login dto => exact Policy.wp_map (wp_login hD (of_decide_eq_true hcall))
  | createPin actor dto => exact Policy.wp_map (wp_createPin hD (of_decide_eq_true hcall))
  | _ => cases hcall

def adasAccount : Account := ⟨"u1", ["ada"]⟩

def userWithoutPin : User := { userWithPin with pinHash := none }

theorem adasAccount_row : adasAccount.Row (worldOf userWithoutPin).db userWithoutPin := by
  refine ⟨rfl, fun email hemail => ?_⟩
  rw [List.mem_singleton.mp hemail]
  rfl

/-- Three wrong passwords within two minutes lock the account, for login and for the
creation of a PIN; when the lock has run out, a fourth one is compared. -/
def passwordsServed : List (ℕ × Call × List Choice) :=
  [(0, .login ⟨"ada", "guess"⟩, [{}, {}, {}]),
    (1, .createPin ⟨"u1"⟩ ⟨"1234", "1234", "guess"⟩, [{ time := 60000 }, {}, {}]),
    (2, .login ⟨"ada", "guess"⟩, [{ time := 120000 }, {}, {}, {}]),
    (3, .login ⟨"ada", "password"⟩, [{ time := 200000 }, {}, {}, {}]),
    (4, .createPin ⟨"u1"⟩ ⟨"1234", "1234", "guess"⟩, [{ time := 420000 }, {}, {}, {}, {}])]

/-- Four logins one after the other, each of which fails to write the counter. -/
def passwordsUncounted : List (ℕ × Call × List Choice) :=
  (List.range 4).map fun i => (i, .login ⟨"ada", "guess"⟩, [{}, {}, { fault := .failed }])

end Passwords

end WalletApi
