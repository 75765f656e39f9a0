import WalletApi.Concurrency.Progress
import WalletApi.Concurrency.RelyGuarantee

/-!
A stretch of a run, with a stricter discipline of its own.

A run that is under way may come to a stretch about whose schedule more is assumed, in
which calls of another kind arrive and a stronger invariant holds. What the threads
under way have kept so far they go on keeping (`wp_strengthen`), as long as their
steps respect what the stretch adds. Its calls may rely on what is known
about a thread before it exists, because nobody else can spoil it.
-/

namespace Concurrency

open Machine

namespace RelyGuarantee

variable {S : Signature} {σ τ α : Type} {G G' : RelyGuarantee S σ τ} {q : τ} {i : ℕ} {s t : σ}
  {Q : α → σ → Prop} {E : S.Err → σ → Prop}

/-- The discipline `G'` asks for more than `G`, but nothing more of the steps that a
thread takes in the role `q`. -/
structure Strengthens (G G' : RelyGuarantee S σ τ) (q : τ) (i : ℕ) : Prop where
  inv : ∀ {s}, G'.Inv s → G.Inv s
  guar : ∀ {j s t}, G'.Guar j s t → G.Guar j s t
  step : ∀ {c s r t}, G'.Step q i c s r t → G.Step q i c s r t
  demand : ∀ {c s}, G.Demand i c s → G'.Demand i c s
  own : ∀ {c s r t}, G'.Inv s → G'.Step q i c s r t → G.Inv t → G.Guar i s t →
    G'.Inv t ∧ G'.Guar i s t

theorem Strengthens.rely (h : Strengthens G G' q i) {j : ℕ} (hr : G'.Rely j s t) : G.Rely j s t :=
  hr.lift (G.Rely j) (fun _ => .refl) (fun h h' => h.trans h')
    fun hj hs ht hg => .single ⟨h.inv hs, h.inv ht, _, hj, h.guar hg⟩

/-- A program that keeps the weaker discipline keeps the stronger one. -/
theorem wp_strengthen (h : Strengthens G G' q i) (p : Prog S α) :
    ∀ {s}, G.wp q i p Q E s → G'.wp q i p Q E s := by
  induction p with
  | ret a => exact fun hp => hp
  | fail e => exact fun hp => hp
  | op c k ih =>
      intro s hp t ht hr
      -- What the others do in the stretch they may do under the weaker discipline too.
      obtain ⟨hd, hnext⟩ := hp t (h.inv ht) (h.rely hr)
      refine ⟨h.demand hd, fun r u hu => ?_⟩
      obtain ⟨hinv, hguar, hwp⟩ := hnext r u (h.step hu)
      obtain ⟨hinv', hguar'⟩ := h.own ht hu hinv hguar
      exact ⟨hinv', hguar', ih r hwp⟩

/-- What a program has to do does not change while others take steps. -/
theorem wp_rely (p : Prog S α) (hr : G.Rely i s t) (h : G.wp q i p Q E s) :
    G.wp q i p (fun _ _ => True) (fun _ _ => True) t := by
  cases p with
  | ret a => trivial
  | fail e => trivial
  | op c k =>
      intro u hu hr'
      obtain ⟨hd, hnext⟩ := h u hu (hr.trans hr')
      refine ⟨hd, fun r v hv => ?_⟩
      obtain ⟨hinv, hguar, hwp⟩ := hnext r v hv
      exact ⟨hinv, hguar, wp_mono (fun _ _ _ => trivial) (fun _ _ _ => trivial) (k r) hwp⟩

end RelyGuarantee

/-! ### Soundness -/

variable {M : Machine}

/-- Every thread serves a call that has been admitted. -/
theorem Machine.Reachable.admitted {A : Assumptions M} {s₀ : M.State} {cfg : Config M}
    (h : Reachable A s₀ cfg) {i : ℕ} {call : M.Call} {p : Prog M.sig M.Result}
    (hth : cfg.threads i = some (.running call p)) : A.admits call := by
  have hall : ∀ call p, cfg.threads i = some (.running call p) → A.admits call := by
    refine h.threadwise (i := i) (J := fun th _ => ∀ call p, th = some (.running call p) → A.admits call)
      (fun _ _ => nofun) ?_ ?_ (fun _ _ _ => nofun) (fun _ _ h => h) fun _ h => h
    · intro call s hadmits _ call' p heq
      cases heq
      exact hadmits
    · intro call c k ch s r t _ hbefore call' p heq
      cases heq
      exact hbefore call _ rfl
  exact hall call p hth

/-- The programs of the calls that are made in a stretch keep the discipline. `K` is what
is known about a thread that does not exist yet. -/
structure Stretch (A : Assumptions M) (G : RelyGuarantee M.sig M.State M.Call)
    (K : ℕ → M.State → Prop) (Q : M.Call → ℕ → M.Result → M.State → Prop)
    (E : M.Call → ℕ → M.sig.Err → M.State → Prop) : Prop where
  covers : ∀ {call i c ch s r t}, A.allows call i c ch s → M.exec i c ch s = some (r, t) →
    G.Step call i c s r t
  crash : ∀ {i s}, G.Inv s → G.Inv (M.crash i s) ∧ G.Guar i s (M.crash i s)
  known : ∀ {i j s t}, j ≠ i → G.Inv s → G.Inv t → G.Guar j s t → K i s → K i t
  call : ∀ {call i s}, A.admits call → G.Inv s → K i s →
    G.wp call i (M.program call) (Q call i) (E call i) s

namespace Stretch

open Certified

variable {A : Assumptions M} {G : RelyGuarantee M.sig M.State M.Call} {K : ℕ → M.State → Prop}
  {Q : M.Call → ℕ → M.Result → M.State → Prop} {E : M.Call → ℕ → M.sig.Err → M.State → Prop}

/-- What holds in every configuration of a stretch. -/
structure Kept (G : RelyGuarantee M.sig M.State M.Call) (K : ℕ → M.State → Prop)
    (Q : M.Call → ℕ → M.Result → M.State → Prop) (E : M.Call → ℕ → M.sig.Err → M.State → Prop)
    (cfg : Config M) : Prop where
  inv : G.Inv cfg.state
  threads : ThreadsOk G Q E cfg
  known : ∀ i, cfg.threads i = none → K i cfg.state

/-- A step of thread `i` within its guarantee. -/
theorem Kept.update {cfg : Config M} {i : ℕ} {t : M.State} {th : Thread M} (F : Stretch A G K Q E)
    (h : Kept G K Q E cfg) (ht : G.Inv t) (hg : G.Guar i cfg.state t)
    (hi : ∀ call p, th = .running call p → G.wp call i p (Q call i) (E call i) t) :
    Kept G K Q E (cfg.set t i th) where
  inv := ht
  threads := h.threads.update h.inv ht hg hi
  known j hj := by
    by_cases hji : j = i
    · subst hji
      rw [Config.threads_set_self] at hj
      cases hj
    · rw [Config.threads_set_of_ne _ _ _ hji] at hj
      exact F.known (Ne.symm hji) h.inv ht hg (h.known j hj)

theorem Kept.next {cfg cfg' : Config M} {a : Action M} (F : Stretch A G K Q E)
    (h : Kept G K Q E cfg) (hp : A.Permits cfg a) (hn : Machine.next cfg a = some cfg') :
    Kept G K Q E cfg' := by
  cases a with
  | spawn i call =>
      obtain ⟨hnone, rfl⟩ := next_spawn_iff.mp hn
      refine ⟨h.inv, fun j call' p hj => ?_, fun j hj => ?_⟩
      · by_cases hji : j = i
        · subst hji
          rw [Config.threads_set_self] at hj
          cases hj
          -- The thread begins with what has been kept for it.
          exact ⟨_, h.inv, .refl, F.call hp h.inv (h.known j hnone)⟩
        · rw [Config.threads_set_of_ne _ _ _ hji] at hj
          exact h.threads j call' p hj
      · by_cases hji : j = i
        · subst hji
          exact h.known j hnone
        · rw [Config.threads_set_of_ne _ _ _ hji] at hj
          exact h.known j hj
  | step i ch =>
      obtain ⟨call, c, k, r, t, hth, he, rfl⟩ := next_step_iff.mp hn
      obtain ⟨s, -, hrely, hwp⟩ := h.threads i call _ hth
      obtain ⟨-, hnext⟩ := hwp cfg.state h.inv hrely
      obtain ⟨ht, hg, hk⟩ := hnext r t (F.covers (hp call c k hth) he)
      refine h.update F ht hg fun call' p heq => ?_
      cases heq
      exact hk
  | crash i =>
      obtain ⟨call, p, -, rfl⟩ := next_crash_iff.mp hn
      obtain ⟨ht, hg⟩ := F.crash (i := i) h.inv
      exact h.update F ht hg fun call' p' heq => by cases heq

theorem Kept.run {cfg cfg' : Config M} (F : Stretch A G K Q E) (h : Kept G K Q E cfg)
    (hrun : Run A cfg cfg') : Kept G K Q E cfg' := by
  induction hrun with
  | refl => exact h
  | tail _ hlast ih =>
      obtain ⟨a, hp, hn⟩ := hlast
      exact ih.next F hp hn

/-- A call of the stretch that has returned met its postcondition when it did. -/
theorem Kept.returned {cfg : Config M} (h : Kept G K Q E cfg) {i : ℕ} {call : M.Call} {a : M.Result}
    (hth : cfg.threads i = some (.running call (.ret a))) :
    ∃ s, G.Inv s ∧ G.Rely i s cfg.state ∧ Q call i a s :=
  h.threads i call _ hth

theorem Kept.failed {cfg : Config M} (h : Kept G K Q E cfg) {i : ℕ} {call : M.Call} {e : M.sig.Err}
    (hth : cfg.threads i = some (.running call (.fail e))) :
    ∃ s, G.Inv s ∧ G.Rely i s cfg.state ∧ E call i e s :=
  h.threads i call _ hth

end Stretch

end Concurrency
