import WalletApi.Runs.AuthOperations
import WalletApi.Runs.Certificate

/-!
Checks of secrets at moments of time.

The machine here serves the same programs, but every command takes place at some
moment of a clock that does not go back, and every comparison of a secret is
written down with its time. What a check knows of the row of its user is what it
has read; the history tells whether that is still so, and which wrong comparisons
have not been counted.
-/

namespace WalletApi

open Concurrency ReadCommitted Machine

/-- When a secret was compared, and whether it was right. -/
structure Comparison where
  time : ℕ
  right : Bool
  deriving DecidableEq

/-- A world with the record of the comparisons made in it, newest first. -/
structure Timeline where
  world : World
  compared : List Comparison

/-! ### What the history tells about the checks -/

namespace Cmd

/-- The row of a user is read. -/
def readsUser : Cmd → Bool
  | .select .pool (.userById _) | .select .pool (.userByEmail _) => true
  | _ => false

/-- A secret is compared or the row of a user is written to. -/
def actsOnUser : Cmd → Bool
  | .bcryptCompare .. | .write _ (.updateUser ..) => true
  | _ => false

end Cmd

namespace Event

/-- A wrong secret has been compared. -/
def isWrong : Event → Bool
  | ⟨_, .bcryptCompare .., .ok (right : Bool), _⟩ => !right
  | _ => false

/-- The row of a user has been written to. -/
def isUpdate : Event → Bool
  | ⟨_, .write _ (.updateUser ..), _, took⟩ => took
  | _ => false

end Event

/-- Since the thread has read the row, no other one has compared a secret or written to it. -/
def ReadingHolds (i : ℕ) : List Event → Bool
  | [] => false
  | e :: es =>
      if e.cmd.readsUser ∧ e.took ∧ e.pid = i then true
      else if e.cmd.actsOnUser ∧ e.took ∧ e.pid ≠ i then false
      else ReadingHolds i es

/-- The threads that have compared a wrong secret and have not counted it since. -/
def uncounted : List Event → List ℕ
  | [] => []
  | e :: es =>
      if e.isWrong then e.pid :: uncounted es
      else if e.isUpdate then (uncounted es).filter (· ≠ e.pid)
      else uncounted es

namespace Timeline

def db (s : Timeline) : Db := s.world.db

def clock (s : Timeline) : ℕ := s.world.clock

def history (s : Timeline) : List Event := s.world.history

/-- The time goes on. -/
def advance (s : Timeline) (time : ℕ) : World := { s.world with clock := max s.world.clock time }

/-- What a comparison adds to the record. -/
def note (time : ℕ) : (c : Cmd) → Except Err c.Resp → List Comparison
  | .bcryptCompare .., .ok (right : Bool) => [⟨time, right⟩]
  | _, _ => []

variable (P : Platform) (config : Config)

/-- A command at some moment, which is not before the last one. -/
def exec (i : ℕ) (c : Cmd) (ch : Choice) (s : Timeline) : Option (Except Err c.Resp × Timeline) :=
  (World.exec P config i c ch (s.advance ch.time)).map fun (r, world) =>
    (r, ⟨world, note world.clock c r ++ s.compared⟩)

def crash (i : ℕ) (s : Timeline) : Timeline := { s with world := s.world.crash i }

@[simp] theorem db_crash (i : ℕ) (s : Timeline) : (s.crash i).db = s.db := rfl

@[simp] theorem clock_crash (i : ℕ) (s : Timeline) : (s.crash i).clock = s.clock := rfl

@[simp] theorem history_crash (i : ℕ) (s : Timeline) : (s.crash i).history = s.history := rfl

@[simp] theorem compared_crash (i : ℕ) (s : Timeline) : (s.crash i).compared = s.compared := rfl

variable {P config} {i : ℕ} {c : Cmd} {ch : Choice} {s t : Timeline} {r : Except Err c.Resp}

/-- What a command does: it fails and nothing but the time changes, or the world takes
the step. Either way it is written down. -/
theorem exec_eq_some (h : exec P config i c ch s = some (r, t)) :
    t.clock = max s.clock ch.time ∧ t.compared = note t.clock c r ++ s.compared ∧
      ((c.fallible config = true ∧ r = .error .network ∧ t.db = s.db ∧
          t.history = ⟨i, c, r, false⟩ :: s.history) ∨
        ∃ r' w, World.perform P config i c ch (s.advance ch.time) = some (r', w) ∧ t.db = w.db ∧
          (r = r' ∨ c.fallible config = true ∧ r = .error .network) ∧
          t.history = ⟨i, c, r, r'.isOk⟩ :: s.history) := by
  obtain ⟨⟨r, w⟩, he, heq⟩ := Option.map_eq_some_iff.mp h
  cases heq
  have hadvance : (s.advance ch.time).clock = max s.clock ch.time := rfl
  rcases World.exec_eq_some he with ⟨hf, -, rfl, rfl⟩ | ⟨r', w', hp, hr, rfl⟩
  · exact ⟨rfl, rfl, .inl ⟨hf, rfl, rfl, rfl⟩⟩
  · refine ⟨?_, rfl, .inr ⟨r', w', hp, rfl, hr.imp id fun hr => ⟨hr.1, hr.2.2⟩, ?_⟩⟩
    · show w'.clock = _
      rcases World.perform_clock hp with h | h
      · rw [h, hadvance]
      · rw [h, hadvance, max_assoc, max_self]
    · show _ :: w'.history = _
      rw [(World.performed hp).history]
      rfl

/-- A command that leaves the database alone. -/
theorem exec_quiet (hc : c.quiet = true) (h : exec P config i c ch s = some (r, t)) :
    t.clock = max s.clock ch.time ∧ t.compared = note t.clock c r ++ s.compared ∧ t.db = s.db ∧
      ∃ took, t.history = ⟨i, c, r, took⟩ :: s.history ∧ ∀ a, r = .ok a → took = true ∧
        ∃ w, World.perform P config i c ch (s.advance ch.time) = some (.ok a, w) := by
  obtain ⟨hclock, hcompared, ⟨-, rfl, hdb, hhistory⟩ | ⟨r', w, hp, hdb, hr, hhistory⟩⟩ :=
    exec_eq_some h
  · exact ⟨hclock, hcompared, hdb, _, hhistory, fun _ he => by cases he⟩
  · refine ⟨hclock, hcompared, hdb.trans ((World.performed hp).db hc), _, hhistory, fun a ha => ?_⟩
    rcases hr with rfl | ⟨-, he⟩
    · subst ha
      exact ⟨rfl, w, hp⟩
    · rw [he] at ha
      cases ha

/-- An update of a user, which is turned down, or fails, or is carried out. -/
theorem exec_updateUser {id : String} {data : UserUpdate}
    {r : Except Err (Cmd.Resp (.write .pool (.updateUser id data)))}
    (h : exec P config i (.write .pool (.updateUser id data)) ch s = some (r, t)) :
    t.clock = max s.clock ch.time ∧ t.compared = s.compared ∧
      (((∃ e, r = .error e) ∧ t.db = s.db ∧ t.history = ⟨i, _, r, false⟩ :: s.history) ∨
        t.db = (Write.updateUser id data).apply s.db ∧ t.history = ⟨i, _, r, true⟩ :: s.history) := by
  obtain ⟨hclock, hcompared, ⟨-, rfl, hdb, hhistory⟩ | ⟨r', w, hp, hdb, hr, hhistory⟩⟩ :=
    exec_eq_some h
  · exact ⟨hclock, hcompared, .inl ⟨⟨_, rfl⟩, hdb, hhistory⟩⟩
  · refine ⟨hclock, hcompared, ?_⟩
    rcases World.write_eq_some hp with ⟨rfl, code, -, rfl⟩ | ⟨row, store, -, -, hstage, rfl, rfl⟩
    · refine .inl ⟨?_, hdb, hhistory⟩
      rcases hr with rfl | ⟨-, rfl⟩
      · exact ⟨_, rfl⟩
      · exact ⟨_, rfl⟩
    · obtain ⟨-, -, rfl⟩ := ReadCommitted.Store.write_eq_done hstage
      exact .inr ⟨hdb, hhistory⟩

end Timeline

/-! ### The marks of a step -/

section Marks

variable {e : Event} {es : List Event} {i : ℕ}

/-- Having read the row, a thread is up to date. -/
theorem ReadingHolds.read (hread : e.cmd.readsUser = true) (htook : e.took = true) :
    ReadingHolds e.pid (e :: es) = true := by
  simp [ReadingHolds, hread, htook]

/-- Its own commands do not outdate a thread. -/
theorem ReadingHolds.own (h : ReadingHolds e.pid es = true) : ReadingHolds e.pid (e :: es) = true := by
  simp only [ReadingHolds, ne_eq, not_true_eq_false, and_false, if_false]
  split
  · rfl
  · exact h

/-- A thread that is up to date after the command of another one was so before, and the
command was none that matters. -/
theorem ReadingHolds.other (hi : e.pid ≠ i) (h : ReadingHolds i (e :: es) = true) :
    ReadingHolds i es = true ∧ ¬(e.cmd.actsOnUser = true ∧ e.took = true) := by
  simp only [ReadingHolds, hi, and_false, if_false, ne_eq, not_false_eq_true, and_true] at h
  split at h
  · cases h
  · rename_i hact
    exact ⟨h, hact⟩

theorem uncounted_of_wrong (h : e.isWrong = true) : uncounted (e :: es) = e.pid :: uncounted es :=
  if_pos h

theorem uncounted_of_not_act (h : ¬(e.cmd.actsOnUser = true ∧ e.took = true))
    (hok : e.isWrong = true → e.took = true) : uncounted (e :: es) = uncounted es := by
  have hwrong : e.isWrong = false := by
    cases hw : e.isWrong with
    | false => rfl
    | true =>
        refine absurd ⟨?_, hok hw⟩ h
        unfold Event.isWrong at hw
        split at hw
        · rfl
        · cases hw
  have hupdate : e.isUpdate = false := by
    cases hu : e.isUpdate with
    | false => rfl
    | true =>
        unfold Event.isUpdate at hu
        split at hu
        · exact absurd ⟨rfl, hu⟩ h
        · cases hu
  simp [uncounted, hwrong, hupdate]

end Marks

/-- The machine that serves the given programs in time. -/
def timed (P : Platform) (config : Config) {C R : Type} (serve : C → Program R) : Machine where
  sig := signature
  State := Timeline
  Choice := Choice
  Call := C
  Result := R
  program := serve
  exec := Timeline.exec P config
  crash := Timeline.crash

end WalletApi
