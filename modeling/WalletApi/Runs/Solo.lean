import WalletApi.Concurrency.Solo
import WalletApi.Runs.Footprint

/-!
What a thread of the API knows from its own exchanges.

The history of the world is a log of all exchanges, so the logic of a thread by
itself applies to the API. A command that is in every footprint needs no
justification here; the rules below are for the programs in which something
does.
-/

namespace WalletApi

open Concurrency ReadCommitted Machine

variable {P : Platform} {config : Config}

abbrev Trace := List (Exchange signature)

def Event.exchange (e : Event) : Exchange signature := ⟨e.cmd, e.result⟩

/-- The history as a log. -/
def World.log (s : World) : List (ℕ × Exchange signature) :=
  s.history.map fun e => (e.pid, e.exchange)

theorem World.log_exec {i : ℕ} {c : Cmd} {ch : Choice} {s t : World} {r : Except Err c.Resp}
    (he : World.exec P config i c ch s = some (r, t)) : t.log = (i, ⟨c, r⟩) :: s.log := by
  obtain ⟨took, hh⟩ := World.exec_history he
  rw [World.log, hh]
  rfl

/-- An exchange of the log is an event of the history. -/
theorem exists_event_of_log {x : Exchange signature} {i : ℕ} {s : World}
    (hx : (i, x) ∈ s.log) :
    ∃ e ∈ s.history, e.pid = i ∧ e.exchange = x := by
  obtain ⟨e, he, heq⟩ := List.mem_map.mp hx
  obtain ⟨rfl, rfl⟩ := Prod.ext_iff.mp heq
  exact ⟨e, he, rfl, rfl⟩

variable (P config) in
def recording : Recording (walletApi P config) := ⟨World.log, World.log_exec, rfl⟩

/-- Whatever the commands of the trace yield is of a kind. -/
def Yields {β : Type} (f : Cmd → Option β) (S : β → Prop) (tr : Trace) : Prop :=
  ∀ x ∈ tr, ∀ b, f x.cmd = some b → S b

namespace Yields

variable {β : Type} {f : Cmd → Option β} {S S' : β → Prop} {tr new : Trace}
  {x : Exchange signature}

theorem nil : Yields f S [] := fun _ hx => absurd hx List.not_mem_nil

theorem mono (h : Yields f S tr) (hS : ∀ b, S b → S' b) : Yields f S' tr :=
  fun x hx b heq => hS b (h x hx b heq)

theorem cons (h : Yields f S tr) (hx : ∀ b, f x.cmd = some b → S b) : Yields f S (x :: tr) := by
  intro y hy
  rcases List.mem_cons.mp hy with rfl | hy
  · exact hx
  · exact h y hy

/-- The command yields nothing. -/
theorem pass (h : Yields f S tr) (hx : f x.cmd = none) : Yields f S (x :: tr) :=
  h.cons fun b hb => by cases hx.symm.trans hb

theorem append (h : Yields f S tr) (hnew : ∀ x ∈ new, f x.cmd = none) :
    Yields f S (new ++ tr) := by
  intro x hx
  rcases List.mem_append.mp hx with hx | hx
  · exact fun b heq => by cases (hnew x hx).symm.trans heq
  · exact h x hx

end Yields

variable (P config) in
/-- The program, run by thread `i` in the role `q`, issues only commands that `D`
allows after the exchanges so far, and ends in `Q` if it returns. -/
def Alone {α : Type} (A : Assumptions (walletApi P config)) (D : Trace → Cmd → Prop) (q : Call)
    (i : ℕ) (p : Program α) (Q : α → Trace → Prop) (tr : Trace) : Prop :=
  (solo A i D).wp q i p Q (fun _ _ => True) tr

namespace Alone

variable {A : Assumptions (walletApi P config)} {D : Trace → Cmd → Prop} {q : Call} {i : ℕ}
  {tr : Trace} {α β : Type} {p : Program α} {Q Q' : α → Trace → Prop} {c : Cmd}

theorem ret {a : α} (h : Q a tr) : Alone P config A D q i (.ret a) Q tr := h

theorem fail {e : Err} : Alone P config A D q i (.fail e) Q tr := trivial

theorem bind {f : β → Program α} {p : Program β}
    (h : Alone P config A D q i p (fun b tr => Alone P config A D q i (f b) Q tr) tr) :
    Alone P config A D q i (p >>= f) Q tr :=
  RelyGuarantee.wp_bind h

theorem map {f : β → α} {p : Program β}
    (h : Alone P config A D q i p (fun b => Q (f b)) tr) : Alone P config A D q i (f <$> p) Q tr :=
  bind (f := fun b => .ret (f b)) h

theorem mono (hQ : ∀ a tr, Q a tr → Q' a tr) (h : Alone P config A D q i p Q tr) :
    Alone P config A D q i p Q' tr :=
  RelyGuarantee.wp_mono hQ (fun _ _ _ => trivial) p h

theorem throwIf {b : Prop} [Decidable b] {e : Err} {Q : Unit → Trace → Prop} (h : ¬b → Q () tr) :
    Alone P config A D q i (throwIf b e) Q tr := by
  rw [WalletApi.throwIf]
  split
  · exact fail
  · exact ret (h (by assumption))

theorem orThrow {o : Option α} {e : Err} (h : ∀ a, o = some a → Q a tr) :
    Alone P config A D q i (orThrow o e) Q tr := by
  cases o with
  | none => exact fail
  | some a => exact ret (h a rfl)

theorem tryCatch {h : Err → Program α} (hp : Alone P config A D q i p Q tr)
    (hh : ∀ e tr, Alone P config A D q i (h e) Q tr) :
    Alone P config A D q i (tryCatch p h) Q tr :=
  RelyGuarantee.wp_tryCatch (RelyGuarantee.wp_mono (fun _ _ hQ => hQ) (fun e tr _ => hh e tr) p hp)

/-- A command whose answer is one that the world may give. -/
theorem command {Q : c.Resp → Trace → Prop} (hd : D tr c)
    (h : ∀ ch s t a, A.allows q i c ch s → World.perform P config i c ch s = some (.ok a, t) →
      Q a (⟨c, .ok a⟩ :: tr)) :
    Alone P config A D q i (perform c) Q tr := by
  refine Solo.wp_perform hd fun ch s r t ha he => ?_
  cases r with
  | error e => trivial
  | ok a =>
      obtain ⟨s', hp, -⟩ := World.exec_eq_ok he
      exact h ch s s' a ha hp

/-- A lookup answers what it finds in some database. -/
theorem select {client : Client} {qy : Query} {Q : qy.Result → Trace → Prop}
    (hd : D tr (.select client qy))
    (h : ∀ d : Db, Q (qy.run d) (⟨.select client qy, .ok (qy.run d)⟩ :: tr)) :
    Alone P config A D q i (select client qy) Q tr := by
  refine command hd fun ch s t a _ hp => ?_
  cases hp
  exact h _

/-- A program whose commands are all justified by what has gone before. -/
theorem within {C : Cmd → Prop} (hp : p.Within C) (hC : ∀ c new, C c → D (new ++ tr) c)
    (hQ : ∀ a new, p.Returns new a → Q a (new.reverse ++ tr)) :
    Alone P config A D q i p Q tr :=
  Solo.wp_within hp hC hQ fun _ _ _ => trivial

section Common

variable (hD : ∀ (tr : Trace) (c : Cmd), c.common = true → D tr c)

include hD

/-- A transaction, from its beginning to its commit. -/
theorem transaction
    (h : ∀ a, Alone P config A D q i p
      (fun a tr => Alone P config A D q i (perform .commit) (fun _ => Q a) tr)
      (⟨.begin, .ok a⟩ :: tr)) :
    Alone P config A D q i (transaction p) Q tr := by
  refine tryCatch (bind (command (hD _ _ rfl) fun _ _ _ _ _ _ => bind ?_)) fun e tr => ?_
  · exact (h _).mono fun a tr hcommit => bind hcommit
  · exact bind (command (hD _ _ rfl) fun _ _ _ _ _ _ => fail)

/-- A worker whose handler is justified. -/
theorem work {queue : QueueName} {name : String} {handler : String → Program Unit}
    (h : ∀ job : Job, Alone P config A D q i (handler job.data) (fun _ _ => True)
      (⟨.takeJob queue, .ok job⟩ :: tr)) :
    Alone P config A D q i (work queue name handler) (fun _ _ => True) tr := by
  refine bind (command (hD _ _ rfl) fun _ _ _ (job : Job) _ _ => ?_)
  have complete (tr : Trace) : Alone P config A D q i
      (perform (.completeJob queue job.jobId) >>= fun _ => pure ()) (fun _ _ => True) tr :=
    bind (command (hD _ _ rfl) fun _ _ _ _ _ _ => ret trivial)
  refine tryCatch ?_ fun _ tr => bind (command (hD _ _ rfl) fun _ _ _ _ _ _ => ret trivial)
  show Alone P config A D q i (if _ then _ else _) _ _
  split
  · exact complete _
  · exact bind ((h job).mono fun _ tr _ => complete tr)

end Common

end Alone

/-! ### Runs -/

variable {A : Assumptions (walletApi P config)} {D : Call → Trace → Cmd → Prop}
  {Q : Call → Response → Trace → Prop} {cfg cfg' : Machine.Config (walletApi P config)}

variable (P config) in
/-- The programs of the calls are justified. -/
def Justified (A : Assumptions (walletApi P config)) (D : Call → Trace → Cmd → Prop)
    (Q : Call → Response → Trace → Prop) : Prop :=
  ∀ {call i}, A.admits call → Alone P config A (D call) call i (program P config call) (Q call) []

theorem followed_of_reachable (hcall : Justified P config A D Q)
    (h : Reachable A World.initial cfg) :
    Followed (recording P config) A D Q (fun _ _ _ => True) cfg :=
  .of_reachable rfl hcall h

/-- The command of thread `i` was justified by what the thread had exchanged before. -/
def JustifiedIn (D : Call → Trace → Cmd → Prop) (cfg : Machine.Config (walletApi P config)) (i : ℕ)
    (c : Cmd) : Prop :=
  ∃ th new tr, cfg.threads i = some th ∧ own i (World.log cfg.state) = new ++ tr ∧ D th.call tr c

/-- Every event was justified. -/
theorem justifiedIn_of_mem {E : Call → Err → Trace → Prop}
    (F : Followed (recording P config) A D Q E cfg) {e : Event}
    (he : e ∈ World.history cfg.state) : JustifiedIn D cfg e.pid e.cmd := by
  obtain ⟨es, h, hh⟩ := List.append_of_mem he
  have hlog : World.log cfg.state = es.map (fun e => (e.pid, e.exchange)) ++
      (e.pid, e.exchange) :: h.map (fun e => (e.pid, e.exchange)) := by
    show List.map _ (World.history cfg.state) = _
    rw [hh, List.map_append, List.map_cons]
  obtain ⟨th, hth, hd⟩ := F.logged hlog
  refine ⟨th, own e.pid (es.map fun e => (e.pid, e.exchange)) ++ [e.exchange], _, hth, ?_, hd⟩
  rw [hlog, own_append, own_cons_self, List.append_cons]
  rfl

/-- Whatever is in a buffer was written by its thread. -/
theorem staged_logged (h : Reachable A World.initial cfg) :
    cfg.state.Staged fun j w =>
      ∃ e ∈ World.history cfg.state, e.pid = j ∧ e.cmd = .write .tx w := by
  let logged (s : World) (j : ℕ) (w : Write) : Prop :=
    ∃ e ∈ s.history, e.pid = j ∧ e.cmd = .write .tx w
  refine h.invariant (I := fun s => World.Staged (logged s) s) (fun _ _ hopen => by cases hopen) ?_
    fun hs => World.Staged.crash hs
  intro call i c ch s r t _ he hs
  obtain ⟨took, hh⟩ := World.exec_history he
  refine World.Staged.exec hs he (fun j w ⟨e, hmem, he⟩ => ?_) fun w hw => ?_
  · exact ⟨e, hh ▸ .tail _ hmem, he⟩
  · show ∃ e ∈ t.history, e.pid = i ∧ e.cmd = .write .tx w
    rw [hh]
    exact ⟨_, .head _, rfl, hw⟩

/-- So it was justified as well. -/
theorem justifiedIn_of_staged {E : Call → Err → Trace → Prop}
    (F : Followed (recording P config) A D Q E cfg) (h : Reachable A World.initial cfg) :
    cfg.state.Staged fun j w => JustifiedIn D cfg j (.write .tx w) := by
  intro j ws hopen w hw
  obtain ⟨e, he, rfl, hcmd⟩ := staged_logged h j ws hopen w hw
  exact hcmd ▸ justifiedIn_of_mem F he

/-! ### The moment of an event -/

/-- The step by which the event happened, from `cfg₀` to `cfg₁`. -/
structure Happened (A : Assumptions (walletApi P config)) (e : Event)
    (cfg₀ cfg₁ : Machine.Config (walletApi P config)) : Prop where
  before : Reachable A World.initial cfg₀
  after : Reachable A World.initial cfg₁
  step : ∃ call k ch, cfg₀.threads e.pid = some (.running call (.op e.cmd k)) ∧
    A.allows call e.pid e.cmd ch cfg₀.state ∧
    World.exec P config e.pid e.cmd ch cfg₀.state = some (e.result, cfg₁.state) ∧
    Machine.next cfg₀ (.step e.pid ch) = some cfg₁
  history : World.history cfg₁.state = e :: World.history cfg₀.state

theorem Happened.exec {e : Event} (h : Happened A e cfg cfg') :
    ∃ call ch, A.allows call e.pid e.cmd ch cfg.state ∧
      World.exec P config e.pid e.cmd ch cfg.state = some (e.result, cfg'.state) := by
  obtain ⟨call, k, ch, -, hallows, he, -⟩ := h.step
  exact ⟨call, ch, hallows, he⟩

/-- A step of a thread is the moment of an event. -/
theorem Happened.of_step {i : ℕ} {ch : Choice} (h : Reachable A World.initial cfg)
    (hp : A.Permits cfg (.step i ch)) (hn : Machine.next cfg (.step i ch) = some cfg') :
    ∃ e : Event, e.pid = i ∧ Happened A e cfg cfg' := by
  obtain ⟨call, c, k, r, t, hth, he, hcfg⟩ := next_step_iff.mp hn
  obtain ⟨took, hh⟩ := World.exec_history he
  have hstate : cfg'.state = t := by rw [hcfg, Config.state_set]
  exact ⟨⟨i, c, r, took⟩, rfl, h, .next _ h hp hn,
    ⟨call, k, ch, hth, hp call c k hth, hstate ▸ he, hn⟩, hstate ▸ hh⟩

/-- Every event of the history happened at some moment of the run. -/
theorem happened_of_reachable (h : Reachable A World.initial cfg) :
    ∀ {es : List Event} {e : Event} {hs : List Event}, World.history cfg.state = es ++ e :: hs →
      ∃ cfg₀ cfg₁, Happened A e cfg₀ cfg₁ ∧ Run A cfg₁ cfg ∧ World.history cfg₀.state = hs := by
  induction h with
  | initial =>
      intro es e hs hh
      replace hh : ([] : List Event) = es ++ e :: hs := hh
      simp at hh
  | @next cfg cfg' a hr hp hn ih =>
      intro es e hs hh
      have later (hh : World.history cfg.state = es ++ e :: hs) :
          ∃ cfg₀ cfg₁, Happened A e cfg₀ cfg₁ ∧ Run A cfg₁ cfg' ∧
            World.history cfg₀.state = hs := by
        obtain ⟨cfg₀, cfg₁, hhappened, hrun, hbefore⟩ := ih hh
        exact ⟨cfg₀, cfg₁, hhappened, hrun.tail ⟨a, hp, hn⟩, hbefore⟩
      cases a with
      | spawn i call =>
          obtain ⟨-, rfl⟩ := next_spawn_iff.mp hn
          exact later hh
      | crash i =>
          obtain ⟨call, p, -, rfl⟩ := next_crash_iff.mp hn
          exact later hh
      | step i ch =>
          obtain ⟨e', -, hhappened⟩ := Happened.of_step hr hp hn
          rw [hhappened.history] at hh
          cases es with
          | nil =>
              obtain ⟨rfl, hbefore⟩ := List.cons.inj hh
              exact ⟨cfg, cfg', hhappened, .refl, hbefore⟩
          | cons e'' es =>
              obtain ⟨cfg₀, cfg₁, hhappened', hrun, hbefore⟩ := ih (List.cons.inj hh).2
              exact ⟨cfg₀, cfg₁, hhappened', hrun.tail ⟨_, hp, hn⟩, hbefore⟩

/-- Of two events one came before the other. -/
theorem ordered_of_mem {es : List Event} {e e' : Event} (he : e ∈ es) (he' : e' ∈ es) (hne : e ≠ e') :
    (∃ later earlier, es = later ++ e :: earlier ∧ e' ∈ earlier) ∨
      ∃ later earlier, es = later ++ e' :: earlier ∧ e ∈ earlier := by
  obtain ⟨later, earlier, rfl⟩ := List.append_of_mem he
  rcases List.mem_append.mp he' with hlater | hearlier
  · obtain ⟨newest, between, rfl⟩ := List.append_of_mem hlater
    refine .inr ⟨newest, between ++ e :: earlier, List.append_assoc .., ?_⟩
    exact List.mem_append_right _ (.head _)
  · rcases List.mem_cons.mp hearlier with rfl | hearlier
    · exact absurd rfl hne
    · exact .inl ⟨later, earlier, rfl, hearlier⟩

end WalletApi
