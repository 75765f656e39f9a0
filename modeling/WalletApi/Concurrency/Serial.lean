import WalletApi.Concurrency.RelyGuarantee

/-!
Calls that are served one after the other.

A call arrives only when all earlier ones have come to an end or have stopped. In
such runs a program is as good as a single transition, and the logic of programs
needs no rely: `sole` is the discipline of a thread while nobody else takes a step.
-/

namespace Concurrency

namespace Machine

variable {M : Machine}

/-- The thread has come to an end. -/
def Thread.Ended : Thread M → Prop
  | .running _ p => p.Done
  | .crashed _ => True

/-- The configurations of runs that serve one call after the other. -/
inductive Serial (A : Assumptions M) (s : M.State) : Config M → Prop
  | initial : Serial A s (.initial s)
  | spawn {cfg cfg' : Config M} {i : ℕ} {call : M.Call} (h : Serial A s cfg)
      (hidle : ∀ j th, cfg.threads j = some th → th.Ended) (hp : A.Permits cfg (.spawn i call))
      (hn : next cfg (.spawn i call) = some cfg') : Serial A s cfg'
  | step {cfg cfg' : Config M} {i : ℕ} {ch : M.Choice} (h : Serial A s cfg)
      (hp : A.Permits cfg (.step i ch)) (hn : next cfg (.step i ch) = some cfg') :
      Serial A s cfg'
  | crash {cfg cfg' : Config M} {i : ℕ} {th : Thread M} (h : Serial A s cfg)
      (hi : cfg.threads i = some th) (hrunning : ¬th.Ended)
      (hn : next cfg (.crash i) = some cfg') : Serial A s cfg'

theorem Serial.reachable {A : Assumptions M} {s : M.State} {cfg : Config M} (h : Serial A s cfg) :
    Reachable A s cfg := by
  induction h with
  | initial => exact .initial
  | spawn _ _ hp hn ih => exact .next _ ih hp hn
  | step _ hp hn ih => exact .next _ ih hp hn
  | crash _ _ _ hn ih => exact .next (.crash _) ih trivial hn

section Replay

variable {A : Assumptions M} [DecidablePred A.admits] [∀ call i c ch s, Decidable (A.allows call i c ch s)]
  {s : M.State} {i : ℕ}

/-- The served thread goes on, and nobody else does. -/
theorem Serial.steps {choices : List M.Choice} :
    ∀ {cfg cfg' : Config M}, Serial A s cfg →
      replayUnder A cfg (choices.map (.step i)) = some cfg' →
      Serial A s cfg' ∧ ∀ j, j ≠ i → cfg'.threads j = cfg.threads j := by
  induction choices with
  | nil =>
      intro cfg cfg' h hreplay
      cases hreplay
      exact ⟨h, fun _ _ => rfl⟩
  | cons ch choices ih =>
      intro cfg cfg' h hreplay
      obtain ⟨mid, hmid, hrest⟩ : ∃ mid, replayUnder A cfg [.step i ch] = some mid ∧
          replayUnder A mid (choices.map (.step i)) = some cfg' := by
        rw [List.map_cons, ← List.singleton_append, replayUnder_append] at hreplay
        exact Option.bind_eq_some_iff.mp hreplay
      obtain ⟨hp, hn⟩ := replayUnder_single hmid
      obtain ⟨hserial, hothers⟩ := ih (.step h hp hn) hrest
      obtain ⟨call, c, k, r, t, -, -, rfl⟩ := next_step_iff.mp hn
      exact ⟨hserial, fun j hj => (hothers j hj).trans (Config.threads_set_of_ne _ _ _ hj)⟩

/-- The thread has nothing left to do. -/
def Config.hasEnded (cfg : Config M) (i : ℕ) : Bool :=
  match cfg.threads i with
  | some (.running _ (.op ..)) => false
  | _ => true

theorem Thread.ended_of_hasEnded {cfg : Config M} {th : Thread M} (h : cfg.hasEnded i = true)
    (hth : cfg.threads i = some th) : th.Ended := by
  simp only [Config.hasEnded, hth] at h
  cases th with
  | running call p =>
      cases p with
      | ret a => trivial
      | fail e => trivial
      | op c k => cases h
  | crashed call => trivial

variable (A) in
/-- Serve the calls one after the other, each with its own choices. -/
def serveAll (cfg : Config M) : List (ℕ × M.Call × List M.Choice) → Option (Config M)
  | [] => some cfg
  | (i, call, choices) :: rest =>
      (replayUnder A cfg (.spawn i call :: choices.map (.step i))).bind fun mid =>
        if mid.hasEnded i then serveAll mid rest else none

theorem Serial.serveAll {calls : List (ℕ × M.Call × List M.Choice)} :
    ∀ {cfg cfg' : Config M}, Serial A s cfg → (∀ j th, cfg.threads j = some th → th.Ended) →
      Machine.serveAll A cfg calls = some cfg' → Serial A s cfg' := by
  induction calls with
  | nil =>
      intro cfg cfg' h _ hserve
      cases hserve
      exact h
  | cons served calls ih =>
      intro cfg cfg' h hidle hserve
      obtain ⟨i, call, choices⟩ := served
      obtain ⟨mid, hmid, hrest⟩ := Option.bind_eq_some_iff.mp hserve
      split at hrest
      · rename_i hend
        obtain ⟨started, hstart, hsteps⟩ :
            ∃ started, replayUnder A cfg [.spawn i call] = some started ∧
              replayUnder A started (choices.map (.step i)) = some mid := by
          rw [← List.singleton_append, replayUnder_append] at hmid
          exact Option.bind_eq_some_iff.mp hmid
        obtain ⟨hp, hn⟩ := replayUnder_single hstart
        obtain ⟨hserial, hothers⟩ := Serial.steps (.spawn h hidle hp hn) hsteps
        obtain ⟨-, rfl⟩ := next_spawn_iff.mp hn
        refine ih hserial (fun j th hj => ?_) hrest
        by_cases hji : j = i
        · subst hji
          exact Thread.ended_of_hasEnded hend hj
        · rw [hothers j hji, Config.threads_set_of_ne _ _ _ hji] at hj
          exact hidle j th hj
      · cases hrest

end Replay

/-- Thread `i` while nobody else takes a step: `I` holds in every state, and `D` of
every command. -/
def sole (A : Assumptions M) (i : ℕ) (I : M.State → Prop) (D : M.sig.Cmd → M.State → Prop) :
    RelyGuarantee M.sig M.State M.Call where
  Step call j c s r t := ∃ ch, A.allows call j c ch s ∧ M.exec j c ch s = some (r, t)
  Inv := I
  Guar j _ _ := j = i
  Demand _ c s := D c s

namespace Sole

variable {A : Assumptions M} {i : ℕ} {I : M.State → Prop} {D : M.sig.Cmd → M.State → Prop}
  {call : M.Call} {α : Type} {s t : M.State} {Q : α → M.State → Prop}
  {E : M.sig.Err → M.State → Prop}

/-- Nobody else takes a step. -/
theorem eq_of_rely (h : (sole A i I D).Rely i s t) : t = s :=
  h.lift (fun s t => t = s) (fun _ => rfl) (fun h h' => h'.trans h)
    fun hj _ _ hg => absurd hg hj

/-- What an answer has to satisfy. -/
def Ends (Q : α → M.State → Prop) (E : M.sig.Err → M.State → Prop) (r : Except M.sig.Err α)
    (t : M.State) : Prop :=
  match r with
  | .ok a => Q a t
  | .error e => E e t

/-- The rule of a single command. -/
theorem wp_perform {c : M.sig.Cmd} {Q : M.sig.Resp c → M.State → Prop} (hd : D c s)
    (h : ∀ ch r t, A.allows call i c ch s → M.exec i c ch s = some (r, t) → I t ∧ Ends Q E r t) :
    (sole A i I D).wp call i (.perform c) Q E s := by
  intro s' _ hrely
  rw [eq_of_rely hrely]
  refine ⟨hd, ?_⟩
  rintro r t ⟨ch, ha, he⟩
  obtain ⟨hI, hends⟩ := h ch r t ha he
  refine ⟨hI, rfl, ?_⟩
  cases r with
  | ok a => exact hends
  | error e => exact hends

/-- A step of the thread. -/
theorem wp_step {c : M.sig.Cmd} {k : Except M.sig.Err (M.sig.Resp c) → Prog M.sig α} {ch : M.Choice}
    {r : Except M.sig.Err (M.sig.Resp c)} (h : (sole A i I D).wp call i (.op c k) Q E s) (hs : I s)
    (ha : A.allows call i c ch s) (he : M.exec i c ch s = some (r, t)) :
    I t ∧ (sole A i I D).wp call i (k r) Q E t := by
  obtain ⟨-, hnext⟩ := h s hs .refl
  obtain ⟨ht, -, hwp⟩ := hnext r t ⟨ch, ha, he⟩
  exact ⟨ht, hwp⟩

end Sole

/-! ### From the programs to the runs -/

/-- Nobody is being served, or one thread is, which keeps the invariant to its end. -/
inductive Turn (A : Assumptions M) (I : M.State → Prop) (D : M.sig.Cmd → M.State → Prop)
    (cfg : Config M) : Prop
  | idle (hidle : ∀ j th, cfg.threads j = some th → th.Ended)
  | busy (i : ℕ) (call : M.Call) (p : Prog M.sig M.Result)
      (hi : cfg.threads i = some (.running call p))
      (hidle : ∀ j th, j ≠ i → cfg.threads j = some th → th.Ended)
      (hwp : (sole A i I D).wp call i p (fun _ _ => True) (fun _ _ => True) cfg.state)

section Soundness

variable {A : Assumptions M} {I : M.State → Prop} {D : M.sig.Cmd → M.State → Prop} {s₀ : M.State}
  {cfg : Config M}

/-- The thread whose turn it is. -/
theorem Turn.busy_of_running (h : Turn A I D cfg) {i : ℕ} {th : Thread M}
    (hi : cfg.threads i = some th) (hrunning : ¬th.Ended) :
    (∀ j th, j ≠ i → cfg.threads j = some th → th.Ended) ∧
      ∃ call p, th = .running call p ∧
        (sole A i I D).wp call i p (fun _ _ => True) (fun _ _ => True) cfg.state := by
  cases h with
  | idle hidle => exact absurd (hidle i _ hi) hrunning
  | busy j call p hj hidle hwp =>
      by_cases hji : i = j
      · subst hji
        cases hi.symm.trans hj
        exact ⟨hidle, call, p, rfl, hwp⟩
      · exact absurd (hidle i _ hji hi) hrunning

/-- The program of the thread whose turn it is. -/
theorem Turn.wp (h : Turn A I D cfg) {i : ℕ} {call : M.Call} {c : M.sig.Cmd}
    {k : Except M.sig.Err (M.sig.Resp c) → Prog M.sig M.Result}
    (hi : cfg.threads i = some (.running call (.op c k))) :
    (∀ j th, j ≠ i → cfg.threads j = some th → th.Ended) ∧
      (sole A i I D).wp call i (.op c k) (fun _ _ => True) (fun _ _ => True) cfg.state := by
  obtain ⟨hidle, call', p, heq, hwp⟩ := h.busy_of_running hi (fun hended => hended)
  cases heq
  exact ⟨hidle, hwp⟩

/-- Soundness: if every program keeps the invariant by itself, so does every run that
serves one call after the other. -/
theorem Serial.sound (hinitial : I s₀) (hcrash : ∀ i s, I s → I (M.crash i s))
    (hcall : ∀ call i s, A.admits call → I s →
      (sole A i I D).wp call i (M.program call) (fun _ _ => True) (fun _ _ => True) s)
    (h : Serial A s₀ cfg) : I cfg.state ∧ Turn A I D cfg := by
  induction h with
  | initial => exact ⟨hinitial, .idle fun j th hj => by cases hj⟩
  | @spawn cfg cfg' i call _ hidle hp hn ih =>
      obtain ⟨hI, -⟩ := ih
      obtain ⟨-, rfl⟩ := next_spawn_iff.mp hn
      refine ⟨hI, .busy i call _ (Config.threads_set_self ..) (fun j th hji hj => ?_)
        (hcall call i _ hp hI)⟩
      rw [Config.threads_set_of_ne _ _ _ hji] at hj
      exact hidle j th hj
  | @step cfg cfg' i ch _ hp hn ih =>
      obtain ⟨hI, hturn⟩ := ih
      obtain ⟨call, c, k, r, t, hi, he, rfl⟩ := next_step_iff.mp hn
      obtain ⟨hidle, hwp⟩ := hturn.wp hi
      obtain ⟨ht, hwp'⟩ := Sole.wp_step hwp hI (hp call c k hi) he
      refine ⟨ht, .busy i call _ (Config.threads_set_self ..) (fun j th hji hj => ?_) hwp'⟩
      rw [Config.threads_set_of_ne _ _ _ hji] at hj
      exact hidle j th hji hj
  | @crash cfg cfg' i th _ hi hrunning hn ih =>
      obtain ⟨hI, hturn⟩ := ih
      obtain ⟨hidle, -⟩ := hturn.busy_of_running hi hrunning
      obtain ⟨call, p, -, rfl⟩ := next_crash_iff.mp hn
      refine ⟨hcrash i _ hI, .idle fun j th hj => ?_⟩
      by_cases hji : j = i
      · subst hji
        rw [Config.threads_set_self] at hj
        cases hj
        exact trivial
      · rw [Config.threads_set_of_ne _ _ _ hji] at hj
        exact hidle j th hji hj

/-- What a thread is about to do meets the demand. -/
theorem Serial.demand (hinitial : I s₀) (hcrash : ∀ i s, I s → I (M.crash i s))
    (hcall : ∀ call i s, A.admits call → I s →
      (sole A i I D).wp call i (M.program call) (fun _ _ => True) (fun _ _ => True) s)
    (h : Serial A s₀ cfg) {i : ℕ} {call : M.Call} {c : M.sig.Cmd}
    {k : Except M.sig.Err (M.sig.Resp c) → Prog M.sig M.Result}
    (hi : cfg.threads i = some (.running call (.op c k))) : D c cfg.state := by
  obtain ⟨hI, hturn⟩ := h.sound hinitial hcrash hcall
  exact ((hturn.wp hi).2 _ hI .refl).1

end Soundness

end Machine

end Concurrency
