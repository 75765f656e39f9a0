import WalletApi.Concurrency.Machine

/-!
A rely-guarantee logic for programs that interleave on a shared state.

A discipline consists of an invariant of the shared state, a guarantee that
every step of a thread keeps towards the others, and a demand on the commands a
thread may be about to issue. `wp` is the weakest precondition of a program
under a discipline: at every command the other threads may first take any number
of steps within *their* guarantees (`Rely`), then the command is executed, and
the step has to restore the invariant and keep the guarantee. Since the
environment is quantified over at the command itself, an assertion never has to
be proved stable by hand: what the rely says about it is used where it is
needed.

A discipline does not fix the semantics of commands but a relation `Step` that
has to cover it. A second discipline for the same programs may therefore build
what an earlier one has established, or what is assumed of the environment, into
its own `Step`. What is assumed may depend on the task of the thread, which the
logic calls its role.

`Certified.reachable` is the soundness of the logic, proved once for all
machines: if each call's program has its weakest precondition whenever the
invariant holds, then the invariant holds in every reachable state, and every
step of every run keeps its guarantee.
-/

namespace Concurrency

open Machine

/-- A discipline for threads with commands in `S` and roles in `τ` over the
shared state `σ`. -/
structure RelyGuarantee (S : Signature) (σ τ : Type) where
  /-- The effect of a command, as far as the discipline assumes it. -/
  Step : τ → ℕ → (c : S.Cmd) → σ → Except S.Err (S.Resp c) → σ → Prop
  Inv : σ → Prop
  Guar : ℕ → σ → σ → Prop
  /-- What has to hold when a thread is about to issue a command. -/
  Demand : ℕ → S.Cmd → σ → Prop

namespace RelyGuarantee

variable {S : Signature} {σ τ α β : Type} (G : RelyGuarantee S σ τ)

/-- Any number of steps of threads other than `i`. -/
def Rely (i : ℕ) : σ → σ → Prop :=
  Relation.ReflTransGen fun s t => G.Inv s ∧ G.Inv t ∧ ∃ j, j ≠ i ∧ G.Guar j s t

/-- Any number of steps of any threads. -/
def Runs : σ → σ → Prop :=
  Relation.ReflTransGen fun s t => G.Inv s ∧ G.Inv t ∧ ∃ j, G.Guar j s t

/-- From `s`, thread `i` in role `q` running the program keeps the discipline,
ends in `Q` if it returns, and in `E` if it throws. -/
def wp (q : τ) (i : ℕ) : Prog S α → (α → σ → Prop) → (S.Err → σ → Prop) → σ → Prop
  | .ret a, Q, _, s => Q a s
  | .fail e, _, E, s => E e s
  | .op c k, Q, E, s => ∀ t, G.Inv t → G.Rely i s t → G.Demand i c t ∧
      ∀ r u, G.Step q i c t r u → G.Inv u ∧ G.Guar i t u ∧ wp q i (k r) Q E u

variable {G} {q : τ} {i : ℕ} {Q Q' : α → σ → Prop} {E E' : S.Err → σ → Prop} {s t : σ}

/-- A relation that every step of the others respects is respected by the rely. -/
theorem Rely.lift (h : G.Rely i s t) (R : σ → σ → Prop) (hrefl : ∀ s, R s s)
    (htrans : ∀ {s t u}, R s t → R t u → R s u)
    (hstep : ∀ {j s t}, j ≠ i → G.Inv s → G.Inv t → G.Guar j s t → R s t) : R s t := by
  induction h with
  | refl => exact hrefl s
  | tail _ hlast ih =>
      obtain ⟨hs, ht, j, hj, hg⟩ := hlast
      exact htrans ih (hstep hj hs ht hg)

/-- A relation that every step respects is respected by every run. -/
theorem Runs.lift (h : G.Runs s t) (R : σ → σ → Prop) (hrefl : ∀ s, R s s)
    (htrans : ∀ {s t u}, R s t → R t u → R s u)
    (hstep : ∀ {j s t}, G.Inv s → G.Inv t → G.Guar j s t → R s t) : R s t := by
  induction h with
  | refl => exact hrefl s
  | tail _ hlast ih =>
      obtain ⟨hs, ht, j, hg⟩ := hlast
      exact htrans ih (hstep hs ht hg)

theorem Rely.runs (h : G.Rely i s t) : G.Runs s t :=
  h.lift G.Runs (fun _ => .refl) (fun h h' => h.trans h')
    fun _ hs ht hg => .single ⟨hs, ht, _, hg⟩

theorem wp_mono (hQ : ∀ a t, Q a t → Q' a t) (hE : ∀ e t, E e t → E' e t) (p : Prog S α) :
    ∀ {s}, G.wp q i p Q E s → G.wp q i p Q' E' s := by
  induction p with
  | ret a => exact hQ a _
  | fail e => exact hE e _
  | op c k ih =>
      intro s h t ht hr
      obtain ⟨hd, hs⟩ := h t ht hr
      exact ⟨hd, fun r u hu => ⟨(hs r u hu).1, (hs r u hu).2.1, ih r (hs r u hu).2.2⟩⟩

/-! ### One rule for each way to put programs together -/

theorem wp_ret {a : α} (h : Q a s) : G.wp q i (.ret a) Q E s := h

theorem wp_fail {e : S.Err} (h : E e s) : G.wp q i (.fail e) Q E s := h

theorem wp_bind_iff {P : β → σ → Prop} (p : Prog S α) (f : α → Prog S β) :
    ∀ {s}, G.wp q i (p.bind f) P E s ↔ G.wp q i p (fun a => G.wp q i (f a) P E) E s := by
  induction p with
  | ret a => exact Iff.rfl
  | fail e => exact Iff.rfl
  | op c k ih => intro s; simp only [Prog.op_bind, wp, ih]

theorem wp_bind {P : β → σ → Prop} {p : Prog S α} {f : α → Prog S β}
    (h : G.wp q i p (fun a => G.wp q i (f a) P E) E s) : G.wp q i (p >>= f) P E s :=
  (wp_bind_iff p f).mpr h

theorem wp_tryCatch_iff (p : Prog S α) (h : S.Err → Prog S α) :
    ∀ {s}, G.wp q i (p.tryCatch h) Q E s ↔ G.wp q i p Q (fun e => G.wp q i (h e) Q E) s := by
  induction p with
  | ret a => exact Iff.rfl
  | fail e => exact Iff.rfl
  | op c k ih => intro s; simp only [Prog.tryCatch, wp, ih]

theorem wp_tryCatch {p : Prog S α} {h : S.Err → Prog S α}
    (hp : G.wp q i p Q (fun e => G.wp q i (h e) Q E) s) : G.wp q i (tryCatch p h) Q E s :=
  (wp_tryCatch_iff p h).mpr hp

/-- The rule of a single command: what the rely and the step leave to prove,
separately for an answer and for a failure. -/
theorem wp_perform {c : S.Cmd} {Q : S.Resp c → σ → Prop}
    (hd : ∀ t, G.Inv t → G.Rely i s t → G.Demand i c t)
    (hok : ∀ t u a, G.Inv t → G.Rely i s t → G.Step q i c t (.ok a) u →
      G.Inv u ∧ G.Guar i t u ∧ Q a u)
    (herr : ∀ t u e, G.Inv t → G.Rely i s t → G.Step q i c t (.error e) u →
      G.Inv u ∧ G.Guar i t u ∧ E e u) :
    G.wp q i (.perform c) Q E s := by
  refine fun t ht hr => ⟨hd t ht hr, fun r u hu => ?_⟩
  cases r with
  | ok a => exact hok t u a ht hr hu
  | error e => exact herr t u e ht hr hu

/-! ### Roles -/

/-- The discipline for finer roles. -/
def comap {τ' : Type} (f : τ' → τ) (G : RelyGuarantee S σ τ) : RelyGuarantee S σ τ' where
  Step q := G.Step (f q)
  Inv := G.Inv
  Guar := G.Guar
  Demand := G.Demand

theorem wp_comap {τ' : Type} {f : τ' → τ} {q : τ'} (p : Prog S α) :
    ∀ {s}, (G.comap f).wp q i p Q E s ↔ G.wp (f q) i p Q E s := by
  induction p with
  | ret a => exact Iff.rfl
  | fail e => exact Iff.rfl
  | op c k ih =>
      intro s
      simp only [wp, ih]
      exact Iff.rfl

end RelyGuarantee

/-! ### Soundness -/

variable {M : Machine}

/-- The programs of a machine keep a discipline, in the runs from `s₀` under the
assumptions `A`; a call ends in `Q` or in `E`. -/
structure Certified (M : Machine) (A : Assumptions M) (s₀ : M.State)
    (G : RelyGuarantee M.sig M.State M.Call) (Q : M.Call → ℕ → M.Result → M.State → Prop)
    (E : M.Call → ℕ → M.sig.Err → M.State → Prop) : Prop where
  initial : G.Inv s₀
  /-- `Step` covers the semantics of the commands. -/
  covers : ∀ {cfg : Config M} {call i c k ch r t}, Reachable A s₀ cfg →
    cfg.threads i = some (.running call (.op c k)) → A.allows call i c ch cfg.state →
    M.exec i c ch cfg.state = some (r, t) → G.Step call i c cfg.state r t
  /-- A thread that stops does so within its guarantee. -/
  crash : ∀ {cfg : Config M} {i}, Reachable A s₀ cfg → G.Inv cfg.state →
    G.Inv (M.crash i cfg.state) ∧ G.Guar i cfg.state (M.crash i cfg.state)
  call : ∀ {call i s}, A.admits call → G.Inv s → G.wp call i (M.program call) (Q call i) (E call i) s

namespace Certified

variable {A : Assumptions M} {s₀ : M.State} {G : RelyGuarantee M.sig M.State M.Call}
  {Q : M.Call → ℕ → M.Result → M.State → Prop} {E : M.Call → ℕ → M.sig.Err → M.State → Prop}

/-- Every thread was within its weakest precondition when its last step ended;
since then only others have taken steps. -/
def ThreadsOk (G : RelyGuarantee M.sig M.State M.Call) (Q : M.Call → ℕ → M.Result → M.State → Prop)
    (E : M.Call → ℕ → M.sig.Err → M.State → Prop) (cfg : Config M) : Prop :=
  ∀ i call p, cfg.threads i = some (.running call p) →
    ∃ s, G.Inv s ∧ G.Rely i s cfg.state ∧ G.wp call i p (Q call i) (E call i) s

/-- A step of thread `i` within its guarantee keeps the other threads in order. -/
theorem ThreadsOk.update {cfg : Config M} {i : ℕ} {t : M.State} {th : Thread M}
    (hok : ThreadsOk G Q E cfg) (hinv : G.Inv cfg.state) (ht : G.Inv t)
    (hg : G.Guar i cfg.state t)
    (hi : ∀ call p, th = .running call p → G.wp call i p (Q call i) (E call i) t) :
    ThreadsOk G Q E (cfg.set t i th) := by
  intro j call p hj
  by_cases hji : j = i
  · subst hji
    rw [Config.threads_set_self] at hj
    exact ⟨t, ht, .refl, hi call p (Option.some.inj hj)⟩
  · rw [Config.threads_set_of_ne _ _ _ hji] at hj
    obtain ⟨s, hs, hrely, hwp⟩ := hok j call p hj
    exact ⟨s, hs, hrely.tail ⟨hinv, ht, i, fun h => hji h.symm, hg⟩, hwp⟩

/-- What one step of a thread establishes. -/
theorem step_of_ok (C : Certified M A s₀ G Q E) {cfg : Config M} {i : ℕ} {call : M.Call}
    {c : M.sig.Cmd} {k : Except M.sig.Err (M.sig.Resp c) → Prog M.sig M.Result} {ch : M.Choice}
    {r : Except M.sig.Err (M.sig.Resp c)} {t : M.State}
    (hr : Reachable A s₀ cfg) (hinv : G.Inv cfg.state) (hok : ThreadsOk G Q E cfg)
    (hth : cfg.threads i = some (.running call (.op c k))) (ha : A.allows call i c ch cfg.state)
    (he : M.exec i c ch cfg.state = some (r, t)) :
    G.Inv t ∧ G.Guar i cfg.state t ∧ G.wp call i (k r) (Q call i) (E call i) t := by
  obtain ⟨s, -, hrely, hwp⟩ := hok i call _ hth
  exact (hwp cfg.state hinv hrely).2 r t (C.covers hr hth ha he)

/-- Soundness: the discipline is kept in every reachable configuration. -/
theorem reachable (C : Certified M A s₀ G Q E) {cfg : Config M} (hr : Reachable A s₀ cfg) :
    G.Inv cfg.state ∧ ThreadsOk G Q E cfg := by
  induction hr with
  | initial => exact ⟨C.initial, fun i call p h => by cases h⟩
  | @next cfg cfg' a hr hp hn ih =>
      obtain ⟨hinv, hok⟩ := ih
      cases a with
      | spawn i call =>
          obtain ⟨hnone, rfl⟩ := next_spawn_iff.mp hn
          refine ⟨hinv, fun j call' p hj => ?_⟩
          by_cases hji : j = i
          · subst hji
            rw [Config.threads_set_self] at hj
            cases hj
            exact ⟨_, hinv, .refl, C.call hp hinv⟩
          · rw [Config.threads_set_of_ne _ _ _ hji] at hj
            exact hok j call' p hj
      | step i ch =>
          obtain ⟨call, c, k, r, t, hth, he, rfl⟩ := next_step_iff.mp hn
          obtain ⟨ht, hg, hwp⟩ := C.step_of_ok hr hinv hok hth (hp call c k hth) he
          refine ⟨ht, hok.update hinv ht hg fun call' p heq => ?_⟩
          cases heq
          exact hwp
      | crash i =>
          obtain ⟨call, p, hth, rfl⟩ := next_crash_iff.mp hn
          obtain ⟨ht, hg⟩ := C.crash hr hinv
          exact ⟨ht, hok.update hinv ht hg fun call' p' heq => by cases heq⟩

theorem inv (C : Certified M A s₀ G Q E) {cfg : Config M} (hr : Reachable A s₀ cfg) :
    G.Inv cfg.state :=
  (C.reachable hr).1

/-- Every command that a run issues meets the demand of the discipline. -/
theorem demand (C : Certified M A s₀ G Q E) {cfg : Config M} {i : ℕ} {call : M.Call}
    {c : M.sig.Cmd} {k : Except M.sig.Err (M.sig.Resp c) → Prog M.sig M.Result}
    (hr : Reachable A s₀ cfg) (hth : cfg.threads i = some (.running call (.op c k))) :
    G.Demand i c cfg.state := by
  obtain ⟨s, -, hrely, hwp⟩ := (C.reachable hr).2 i call _ hth
  exact (hwp cfg.state (C.inv hr) hrely).1

/-- A call that has returned met its postcondition when it did. -/
theorem returned (C : Certified M A s₀ G Q E) {cfg : Config M} {i : ℕ} {call : M.Call}
    {a : M.Result} (hr : Reachable A s₀ cfg)
    (hth : cfg.threads i = some (.running call (.ret a))) :
    ∃ s, G.Inv s ∧ G.Rely i s cfg.state ∧ Q call i a s :=
  (C.reachable hr).2 i call _ hth

/-- So did a call that has thrown. -/
theorem failed (C : Certified M A s₀ G Q E) {cfg : Config M} {i : ℕ} {call : M.Call}
    {e : M.sig.Err} (hr : Reachable A s₀ cfg)
    (hth : cfg.threads i = some (.running call (.fail e))) :
    ∃ s, G.Inv s ∧ G.Rely i s cfg.state ∧ E call i e s :=
  (C.reachable hr).2 i call _ hth

/-- Every step of a run keeps the guarantee of its thread, and a thread that the
step brings to an end ends in its postcondition. -/
theorem step (C : Certified M A s₀ G Q E) {cfg : Config M} {i : ℕ} {call : M.Call}
    {c : M.sig.Cmd} {k : Except M.sig.Err (M.sig.Resp c) → Prog M.sig M.Result} {ch : M.Choice}
    {r : Except M.sig.Err (M.sig.Resp c)} {t : M.State} (hr : Reachable A s₀ cfg)
    (hth : cfg.threads i = some (.running call (.op c k))) (ha : A.allows call i c ch cfg.state)
    (he : M.exec i c ch cfg.state = some (r, t)) :
    G.Inv t ∧ G.Guar i cfg.state t ∧ G.wp call i (k r) (Q call i) (E call i) t :=
  C.step_of_ok hr (C.inv hr) (C.reachable hr).2 hth ha he

/-- What a thread is left with right after its own step. -/
theorem after_step (C : Certified M A s₀ G Q E) {cfg cfg' : Config M} {i : ℕ} {ch : M.Choice}
    {call : M.Call} {p : Prog M.sig M.Result} (hr : Reachable A s₀ cfg)
    (hp : A.Permits cfg (.step i ch)) (hn : Machine.next cfg (.step i ch) = some cfg')
    (hth : cfg'.threads i = some (.running call p)) :
    G.Inv cfg'.state ∧ G.wp call i p (Q call i) (E call i) cfg'.state := by
  obtain ⟨call', c, k, r, t, hth', he, rfl⟩ := next_step_iff.mp hn
  rw [Config.threads_set_self] at hth
  cases hth
  obtain ⟨ht, -, hwp⟩ := C.step hr hth' (hp _ c k hth') he
  exact ⟨ht, hwp⟩

/-- The state changes of a run, whatever action causes them. -/
theorem guar_of_next (C : Certified M A s₀ G Q E) {cfg cfg' : Config M} {a : Action M}
    (hr : Reachable A s₀ cfg) (hp : A.Permits cfg a) (hn : Machine.next cfg a = some cfg') :
    cfg'.state = cfg.state ∨ ∃ i, G.Guar i cfg.state cfg'.state := by
  cases a with
  | spawn i call =>
      obtain ⟨-, rfl⟩ := next_spawn_iff.mp hn
      exact .inl rfl
  | step i ch =>
      obtain ⟨call, c, k, r, t, hth, he, rfl⟩ := next_step_iff.mp hn
      exact .inr ⟨i, (C.step hr hth (hp call c k hth) he).2.1⟩
  | crash i =>
      obtain ⟨call, p, hth, rfl⟩ := next_crash_iff.mp hn
      exact .inr ⟨i, (C.crash hr (C.inv hr)).2⟩

end Certified

end Concurrency
