import WalletApi.Concurrency.Footprint
import WalletApi.Concurrency.RelyGuarantee

/-!
What a thread can know from its own exchanges.

A program decides what to do next by what it has been answered so far, and by
nothing else. So much of what it does can be justified without looking at the
shared state at all: it is enough to keep a list of the commands that the thread
has issued, with their answers. This is a discipline whose state is that list,
and in which no other thread takes a step (`solo`); an answer is any that the
machine may give in some state.

If a machine keeps a log of all exchanges, the demands of the discipline hold of
its runs (`Followed.of_reachable`): each exchange in the log was justified by
what its thread had exchanged before.
-/

namespace Concurrency

/-- A command and its answer. -/
structure Exchange (S : Signature) where
  cmd : S.Cmd
  result : Except S.Err (S.Resp cmd)

/-- What has become of a program after the exchanges, oldest first. -/
inductive Prog.Reaches {S : Signature} {α : Type} : Prog S α → List (Exchange S) → Prog S α → Prop
  | done (p : Prog S α) : p.Reaches [] p
  | op {c : S.Cmd} {k : Except S.Err (S.Resp c) → Prog S α} {r : Except S.Err (S.Resp c)}
      {tr : List (Exchange S)} {p : Prog S α} (h : (k r).Reaches tr p) :
      (Prog.op c k).Reaches (⟨c, r⟩ :: tr) p

/-- A program issues only commands of its footprint. -/
theorem Prog.Within.of_reaches {S : Signature} {α : Type} {C : S.Cmd → Prop} {p p' : Prog S α}
    {tr : List (Exchange S)} (h : p.Reaches tr p') (hp : p.Within C) : ∀ x ∈ tr, C x.cmd := by
  induction h with
  | done p => exact fun x hx => absurd hx List.not_mem_nil
  | op _ ih =>
      intro x hx
      rcases List.mem_cons.mp hx with rfl | hx
      · exact hp.1
      · exact ih (hp.2 _) x hx

/-- After the exchanges the program has returned. -/
def Prog.Returns {S : Signature} {α : Type} (p : Prog S α) (tr : List (Exchange S)) (a : α) : Prop :=
  p.Reaches tr (.ret a)

section Own

variable {S : Signature}

/-- The exchanges of one thread in a log of all, newest first. -/
def own (i : ℕ) (log : List (ℕ × Exchange S)) : List (Exchange S) :=
  log.filterMap fun e => if e.1 = i then some e.2 else none

theorem own_cons_self (i : ℕ) (x : Exchange S) (log : List (ℕ × Exchange S)) :
    own i ((i, x) :: log) = x :: own i log := by
  simp [own]

theorem own_cons_of_ne {i j : ℕ} (h : j ≠ i) (x : Exchange S)
    (log : List (ℕ × Exchange S)) : own i ((j, x) :: log) = own i log := by
  simp [own, h]

theorem own_append (i : ℕ) (log log' : List (ℕ × Exchange S)) :
    own i (log ++ log') = own i log ++ own i log' :=
  List.filterMap_append

theorem mem_own {i : ℕ} {x : Exchange S} {log : List (ℕ × Exchange S)} :
    x ∈ own i log ↔ (i, x) ∈ log := by
  induction log with
  | nil => simp [own]
  | cons e log ih =>
      obtain ⟨j, y⟩ := e
      by_cases hj : j = i
      · subst hj
        rw [own_cons_self, List.mem_cons, List.mem_cons, ih]
        simp
      · rw [own_cons_of_ne hj, ih, List.mem_cons]
        simp [Ne.symm hj]

/-- What a thread has exchanged before one of its exchanges. -/
theorem exists_of_own_eq {i : ℕ} {x : Exchange S} {new old : List (Exchange S)}
    {log : List (ℕ × Exchange S)} (h : own i log = new ++ x :: old) :
    ∃ es h, log = es ++ (i, x) :: h ∧ own i h = old := by
  induction log generalizing new with
  | nil =>
      replace h : [] = new ++ x :: old := h
      simp at h
  | cons e log ih =>
      obtain ⟨j, y⟩ := e
      by_cases hj : j = i
      · subst hj
        rw [own_cons_self] at h
        cases new with
        | nil =>
            obtain ⟨rfl, hold⟩ := List.cons.inj h
            exact ⟨[], log, rfl, hold⟩
        | cons z new =>
            obtain ⟨es, rest, rfl, hold⟩ := ih (List.cons.inj h).2
            exact ⟨(j, y) :: es, rest, rfl, hold⟩
      · rw [own_cons_of_ne hj] at h
        obtain ⟨es, rest, rfl, hold⟩ := ih h
        exact ⟨(j, y) :: es, rest, rfl, hold⟩

end Own

namespace Machine

variable {M : Machine}

/-- Thread `i` by itself. -/
def solo (A : Assumptions M) (i : ℕ) (D : List (Exchange M.sig) → M.sig.Cmd → Prop) :
    RelyGuarantee M.sig (List (Exchange M.sig)) M.Call where
  Step call j c tr r tr' :=
    (∃ ch s t, A.allows call j c ch s ∧ M.exec j c ch s = some (r, t)) ∧ tr' = ⟨c, r⟩ :: tr
  Inv _ := True
  Guar j _ _ := j = i
  Demand _ c tr := D tr c

namespace Solo

variable {A : Assumptions M} {i : ℕ} {D : List (Exchange M.sig) → M.sig.Cmd → Prop}
  {call : M.Call} {α : Type} {tr tr' : List (Exchange M.sig)}
  {Q : α → List (Exchange M.sig) → Prop} {E : M.sig.Err → List (Exchange M.sig) → Prop}

/-- Nobody else takes a step. -/
theorem eq_of_rely (h : (solo A i D).Rely i tr tr') : tr' = tr :=
  h.lift (fun tr tr' => tr' = tr) (fun _ => rfl) (fun h h' => h'.trans h)
    fun hj _ _ hg => absurd hg hj

/-- What an answer has to satisfy. -/
def Ends (Q : α → List (Exchange M.sig) → Prop) (E : M.sig.Err → List (Exchange M.sig) → Prop)
    (r : Except M.sig.Err α) (tr : List (Exchange M.sig)) : Prop :=
  match r with
  | .ok a => Q a tr
  | .error e => E e tr

/-- The rule of a single command. -/
theorem wp_perform {c : M.sig.Cmd} {Q : M.sig.Resp c → List (Exchange M.sig) → Prop}
    (hd : D tr c)
    (h : ∀ ch s r t, A.allows call i c ch s → M.exec i c ch s = some (r, t) →
      Ends Q E r (⟨c, r⟩ :: tr)) :
    (solo A i D).wp call i (.perform c) Q E tr := by
  intro tr' _ hrely
  rw [eq_of_rely hrely]
  refine ⟨hd, ?_⟩
  rintro r _ ⟨⟨ch, s, t, ha, he⟩, rfl⟩
  refine ⟨trivial, rfl, ?_⟩
  have hends := h ch s r t ha he
  cases r with
  | ok a => exact hends
  | error e => exact hends

/-- A program whose commands are all justified by what has gone before, and by each other. -/
theorem wp_throughout {C : M.sig.Cmd → Prop} {p : Prog M.sig α} (hp : p.Within C)
    (hC : ∀ c new, C c → (∀ x ∈ new, C x.cmd) → D (new ++ tr) c)
    (hQ : ∀ a new, p.Returns new a → Q a (new.reverse ++ tr))
    (hE : ∀ e new, p.Reaches new (.fail e) → E e (new.reverse ++ tr)) :
    (solo A i D).wp call i p Q E tr := by
  induction p generalizing tr with
  | ret a => exact hQ a [] (.done _)
  | fail e => exact hE e [] (.done _)
  | op c k ih =>
      intro tr' _ hrely
      rw [eq_of_rely hrely]
      refine ⟨hC c [] hp.1 fun x hx => absurd hx List.not_mem_nil, ?_⟩
      rintro r _ ⟨-, rfl⟩
      refine ⟨trivial, rfl, ih r (hp.2 r) (fun c' new hc hnew => ?_) (fun a new hreturns => ?_)
        fun e new hfails => ?_⟩
      · rw [List.append_cons]
        refine hC c' (new ++ [⟨c, r⟩]) hc fun x hx => ?_
        rcases List.mem_append.mp hx with hx | hx
        · exact hnew x hx
        · rw [List.mem_singleton.mp hx]
          exact hp.1
      · have h := hQ a (⟨c, r⟩ :: new) (.op hreturns)
        rwa [List.reverse_cons, List.append_assoc] at h
      · have h := hE e (⟨c, r⟩ :: new) (.op hfails)
        rwa [List.reverse_cons, List.append_assoc] at h

/-- A program whose commands are all justified by what has gone before. -/
theorem wp_within {C : M.sig.Cmd → Prop} {p : Prog M.sig α} (hp : p.Within C)
    (hC : ∀ c new, C c → D (new ++ tr) c)
    (hQ : ∀ a new, p.Returns new a → Q a (new.reverse ++ tr))
    (hE : ∀ e new, p.Reaches new (.fail e) → E e (new.reverse ++ tr)) :
    (solo A i D).wp call i p Q E tr :=
  wp_throughout hp (fun c new hc _ => hC c new hc) hQ hE

end Solo

/-! ### From the programs to the runs -/

/-- The machine keeps a log of all exchanges. -/
structure Recording (M : Machine) where
  log : M.State → List (ℕ × Exchange M.sig)
  exec : ∀ {i c ch s r t}, M.exec i c ch s = some (r, t) → log t = (i, ⟨c, r⟩) :: log s
  crash : ∀ {i s}, log (M.crash i s) = log s

/-- Every thread is within its weakest precondition, and whatever it has done so
far was justified. -/
structure Followed (R : Recording M) (A : Assumptions M)
    (D : M.Call → List (Exchange M.sig) → M.sig.Cmd → Prop)
    (Q : M.Call → M.Result → List (Exchange M.sig) → Prop)
    (E : M.Call → M.sig.Err → List (Exchange M.sig) → Prop) (cfg : Config M) : Prop where
  running : ∀ {i call p}, cfg.threads i = some (.running call p) →
    (solo A i (D call)).wp call i p (Q call) (E call) (own i (R.log cfg.state))
  /-- A thread that is not there yet has issued no command. -/
  unborn : ∀ {i}, cfg.threads i = none → own i (R.log cfg.state) = []
  logged : ∀ {es i x h}, R.log cfg.state = es ++ (i, x) :: h →
    ∃ th, cfg.threads i = some th ∧ D th.call (own i h) x.cmd

namespace Followed

variable {R : Recording M} {A : Assumptions M}
  {D : M.Call → List (Exchange M.sig) → M.sig.Cmd → Prop}
  {Q : M.Call → M.Result → List (Exchange M.sig) → Prop}
  {E : M.Call → M.sig.Err → List (Exchange M.sig) → Prop} {cfg cfg' : Config M}

/-- The log says the same about a thread as long as the thread takes no step. -/
theorem own_of_ne {i j : ℕ} {x : Exchange M.sig} {s t : M.State} (h : j ≠ i)
    (hlog : R.log t = (j, x) :: R.log s) : own i (R.log t) = own i (R.log s) := by
  rw [hlog, own_cons_of_ne h]

/-- The next command of a thread is justified. -/
theorem demand (F : Followed R A D Q E cfg) {i : ℕ} {call : M.Call} {c : M.sig.Cmd}
    {k : Except M.sig.Err (M.sig.Resp c) → Prog M.sig M.Result}
    (hth : cfg.threads i = some (.running call (.op c k))) :
    D call (own i (R.log cfg.state)) c :=
  (F.running hth _ trivial .refl).1

/-- So was each of its exchanges. -/
theorem own_logged (F : Followed R A D Q E cfg) {i : ℕ} {x : Exchange M.sig}
    {new old : List (Exchange M.sig)} (h : own i (R.log cfg.state) = new ++ x :: old) :
    ∃ th, cfg.threads i = some th ∧ D th.call old x.cmd := by
  obtain ⟨es, rest, hlog, rfl⟩ := exists_of_own_eq h
  exact F.logged hlog

theorem next (F : Followed R A D Q E cfg) {a : Action M}
    (hcall : ∀ {call i}, A.admits call →
      (solo A i (D call)).wp call i (M.program call) (Q call) (E call) [])
    (hp : A.Permits cfg a) (hn : Machine.next cfg a = some cfg') : Followed R A D Q E cfg' := by
  have kept {es : List (ℕ × Exchange M.sig)} {i : ℕ} {x : Exchange M.sig}
      {h : List (ℕ × Exchange M.sig)} (hlog : R.log cfg.state = es ++ (i, x) :: h) :
      ∃ th, cfg'.threads i = some th ∧ D th.call (own i h) x.cmd := by
    obtain ⟨th, hth, hd⟩ := F.logged hlog
    obtain ⟨th', hth', hsame⟩ := call_of_next hn hth
    exact ⟨th', hth', hsame ▸ hd⟩
  cases a with
  | spawn i call =>
      obtain ⟨hnone, rfl⟩ := next_spawn_iff.mp hn
      refine ⟨fun {j call' p} hj => ?_, fun {j} hj => ?_, kept⟩
      · by_cases hji : j = i
        · subst hji
          rw [Config.threads_set_self] at hj
          cases hj
          rw [Config.state_set, F.unborn hnone]
          exact hcall hp
        · rw [Config.threads_set_of_ne _ _ _ hji] at hj
          exact F.running hj
      · by_cases hji : j = i
        · subst hji
          rw [Config.threads_set_self] at hj
          cases hj
        · rw [Config.threads_set_of_ne _ _ _ hji] at hj
          exact F.unborn hj
  | step i ch =>
      obtain ⟨call, c, k, r, t, hth, he, rfl⟩ := next_step_iff.mp hn
      have hlog := R.exec he
      obtain ⟨hd, hnext⟩ := F.running hth _ trivial .refl
      refine ⟨fun {j call' p} hj => ?_, fun {j} hj => ?_, fun {es j x h} hsplit => ?_⟩
      · by_cases hji : j = i
        · subst hji
          rw [Config.threads_set_self] at hj
          cases hj
          rw [Config.state_set, hlog, own_cons_self]
          exact (hnext r _ ⟨⟨ch, _, t, hp call c k hth, he⟩, rfl⟩).2.2
        · rw [Config.threads_set_of_ne _ _ _ hji] at hj
          rw [Config.state_set, own_of_ne (Ne.symm hji) hlog]
          exact F.running hj
      · by_cases hji : j = i
        · subst hji
          rw [Config.threads_set_self] at hj
          cases hj
        · rw [Config.threads_set_of_ne _ _ _ hji] at hj
          rw [Config.state_set, own_of_ne (Ne.symm hji) hlog]
          exact F.unborn hj
      · rw [Config.state_set, hlog] at hsplit
        cases es with
        | nil =>
            cases hsplit
            exact ⟨_, Config.threads_set_self .., hd⟩
        | cons e es => exact kept (List.cons.inj hsplit).2
  | crash i =>
      obtain ⟨call, p, hth, rfl⟩ := next_crash_iff.mp hn
      refine ⟨fun {j call' p'} hj => ?_, fun {j} hj => ?_, fun {es j x h} hsplit => ?_⟩
      · by_cases hji : j = i
        · subst hji
          rw [Config.threads_set_self] at hj
          cases hj
        · rw [Config.threads_set_of_ne _ _ _ hji] at hj
          rw [Config.state_set, R.crash]
          exact F.running hj
      · by_cases hji : j = i
        · subst hji
          rw [Config.threads_set_self] at hj
          cases hj
        · rw [Config.threads_set_of_ne _ _ _ hji] at hj
          rw [Config.state_set, R.crash]
          exact F.unborn hj
      · rw [Config.state_set, R.crash] at hsplit
        exact kept hsplit

/-- Soundness: if the program of each call is justified, so is whatever a run does. -/
theorem of_reachable {s₀ : M.State} (hlog : R.log s₀ = [])
    (hcall : ∀ {call i}, A.admits call →
      (solo A i (D call)).wp call i (M.program call) (Q call) (E call) [])
    (h : Reachable A s₀ cfg) : Followed R A D Q E cfg := by
  induction h with
  | initial =>
      refine ⟨fun h => (by cases h), fun _ => ?_, fun hsplit => ?_⟩
      · show own _ (R.log s₀) = []
        rw [hlog]
        rfl
      · replace hsplit : R.log s₀ = _ := hsplit
        rw [hlog] at hsplit
        exact absurd hsplit.symm (by simp)
  | next a _ hp hn ih => exact ih.next hcall hp hn

end Followed

end Machine

end Concurrency
