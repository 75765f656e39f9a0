import Mathlib.Algebra.BigOperators.Group.List.Basic
import Mathlib.Algebra.Order.Ring.Int
import WalletApi.Concurrency.Simulation

/-!
A bank, as its customers see it.

There are accounts with balances, deposits that are announced and arrive later,
and payouts that have left their account and may be given back. An operation has
its guards: nothing leaves an account that is not there, a deposit arrives only
when it is expected, and a payout is given back only while it is out. A balance
below zero is not a value.

In a run that starts with empty accounts every balance is what the operations add
up to (`balance_of_traced`), and every deposit and every payout has the life that
it should have (`Life`).
-/

namespace Accounting

open Concurrency

variable {α δ π : Type}

/-- An amount that is on its way to an account or away from it. -/
structure Flow (α : Type) where
  account : α
  amount : ℤ
  /-- A deposit has arrived, a payout has been given back. -/
  settled : Bool

@[ext] structure Accounts (α δ π : Type) where
  balance : α → ℤ
  deposits : δ → Option (Flow α)
  payouts : π → Option (Flow α)
  balance_nonneg : ∀ a, 0 ≤ balance a

def Accounts.empty : Accounts α δ π := ⟨fun _ => 0, fun _ => none, fun _ => none, fun _ => le_rfl⟩

inductive Operation (α δ π : Type)
  | expect (d : δ) (a : α) (n : ℤ)
  | arrive (d : δ) (a : α) (n : ℤ)
  | move (a b : α) (n : ℤ)
  | payOut (p : π) (a : α) (n : ℤ)
  | payBack (p : π) (a : α) (n : ℤ)

namespace Operation

/-- When the operation may take place. -/
def Allowed (s : Accounts α δ π) : Operation α δ π → Prop
  | expect d _ n => 0 < n ∧ s.deposits d = none
  | arrive d a n => s.deposits d = some ⟨a, n, false⟩
  | move a _ n => 0 < n ∧ n ≤ s.balance a
  | payOut p a n => 0 < n ∧ n ≤ s.balance a ∧ s.payouts p = none
  | payBack p a n => s.payouts p = some ⟨a, n, false⟩

variable [DecidableEq α] [DecidableEq δ] [DecidableEq π]

/-- What it adds to the balance of an account. -/
def effect (a : α) : Operation α δ π → ℤ
  | expect .. => 0
  | arrive _ b n | payBack _ b n => if b = a then n else 0
  | move b c n => (if b = a then -n else 0) + if c = a then n else 0
  | payOut _ b n => if b = a then -n else 0

/-- What becomes of the deposit, if the operation is about it. -/
def deposit (d : δ) : Operation α δ π → Option (Flow α)
  | expect d' a n => if d' = d then some ⟨a, n, false⟩ else none
  | arrive d' a n => if d' = d then some ⟨a, n, true⟩ else none
  | _ => none

/-- What becomes of the payout, if the operation is about it. -/
def payout (p : π) : Operation α δ π → Option (Flow α)
  | payOut p' a n => if p' = p then some ⟨a, n, false⟩ else none
  | payBack p' a n => if p' = p then some ⟨a, n, true⟩ else none
  | _ => none

end Operation

section Runs

variable [DecidableEq α] [DecidableEq δ] [DecidableEq π]

structure Step (s : Accounts α δ π) (o : Operation α δ π) (t : Accounts α δ π) : Prop where
  allowed : o.Allowed s
  balance : ∀ a, t.balance a = s.balance a + o.effect a
  deposits : ∀ d, t.deposits d = (o.deposit d).or (s.deposits d)
  payouts : ∀ p, t.payouts p = (o.payout p).or (s.payouts p)

/-- A balance is the sum of what the operations have added to it. -/
theorem balance_of_traced {s t : Accounts α δ π} {os : List (Operation α δ π)}
    (h : Traced Step s os t) (a : α) :
    t.balance a = s.balance a + (os.map (·.effect a)).sum := by
  induction h with
  | nil => simp
  | snoc _ hs ih =>
      rw [hs.balance, ih, List.map_append, List.sum_append, List.map_singleton,
        List.sum_singleton, add_assoc]

end Runs

/-! ### The life of a flow -/

/-- What is recorded of one flow, in order: nothing, that it is under way, or that
it is under way and then settled, with the same account and the same amount. -/
inductive Life : List (Flow α) → Prop
  | unheard : Life []
  | underWay (a : α) (n : ℤ) (hn : 0 < n) : Life [⟨a, n, false⟩]
  | settled (a : α) (n : ℤ) (hn : 0 < n) : Life [⟨a, n, false⟩, ⟨a, n, true⟩]

/-- How the next record of a flow follows from the last one. -/
inductive Follows : Option (Flow α) → Flow α → Prop
  | begins (a : α) (n : ℤ) (hn : 0 < n) : Follows none ⟨a, n, false⟩
  | settles (a : α) (n : ℤ) : Follows (some ⟨a, n, false⟩) ⟨a, n, true⟩

theorem Life.snoc {fs : List (Flow α)} {f : Flow α} (h : Life fs) (hf : Follows fs.getLast? f) :
    Life (fs ++ [f]) := by
  generalize hlast : fs.getLast? = last at hf
  cases hf with
  | begins a n hn =>
      rw [List.getLast?_eq_none_iff.mp hlast]
      exact .underWay a n hn
  | settles a n =>
      cases h with
      | unheard => cases hlast
      | underWay a' n' hn =>
          cases hlast
          exact .settled a n hn
      | settled a' n' hn => cases hlast

/-- If every label records a flow as it should, the flow has the life that it should
have, and what is known of it is the last record. -/
theorem life_of_traced {τ ℓ : Type} {step : τ → ℓ → τ → Prop} {t₀ t : τ} {ls : List ℓ}
    (record : ℓ → Option (Flow α)) (known : τ → Option (Flow α)) (hinitial : known t₀ = none)
    (hstep : ∀ {u l v}, step u l v → known v = (record l).or (known u))
    (hrecord : ∀ {u l v f}, step u l v → record l = some f → Follows (known u) f)
    (h : Traced step t₀ ls t) :
    Life (ls.filterMap record) ∧ known t = (ls.filterMap record).getLast? := by
  induction h with
  | nil => exact ⟨.unheard, hinitial⟩
  | @snoc ls u v l _ hs ih =>
      obtain ⟨hlife, hlast⟩ := ih
      rw [List.filterMap_append, hstep hs]
      cases hl : record l with
      | none =>
          rw [List.filterMap_cons_none hl, List.filterMap_nil, List.append_nil]
          exact ⟨hlife, hlast⟩
      | some f =>
          rw [List.filterMap_cons_some hl, List.filterMap_nil, List.getLast?_concat]
          exact ⟨hlife.snoc (hlast ▸ hrecord hs hl), rfl⟩

section Lives

variable [DecidableEq α] [DecidableEq δ] [DecidableEq π] {s t : Accounts α δ π}
  {o : Operation α δ π} {os : List (Operation α δ π)} {f : Flow α}

theorem follows_of_deposit {d : δ} (h : Step s o t) (ho : o.deposit d = some f) :
    Follows (s.deposits d) f := by
  have hallowed := h.allowed
  cases o with
  | expect d' a n =>
      obtain ⟨hd, hf⟩ := Option.ite_none_right_eq_some.mp ho
      cases hf
      rw [← hd, hallowed.2]
      exact .begins a n hallowed.1
  | arrive d' a n =>
      obtain ⟨hd, hf⟩ := Option.ite_none_right_eq_some.mp ho
      cases hf
      have hexpected : s.deposits d' = some ⟨a, n, false⟩ := hallowed
      rw [← hd, hexpected]
      exact .settles a n
  | _ => cases ho

theorem follows_of_payout {p : π} (h : Step s o t) (ho : o.payout p = some f) :
    Follows (s.payouts p) f := by
  have hallowed := h.allowed
  cases o with
  | payOut p' a n =>
      obtain ⟨hp, hf⟩ := Option.ite_none_right_eq_some.mp ho
      cases hf
      rw [← hp, hallowed.2.2]
      exact .begins a n hallowed.1
  | payBack p' a n =>
      obtain ⟨hp, hf⟩ := Option.ite_none_right_eq_some.mp ho
      cases hf
      have hout : s.payouts p' = some ⟨a, n, false⟩ := hallowed
      rw [← hp, hout]
      exact .settles a n
  | _ => cases ho

/-- In a run from empty accounts a deposit is announced once, and arrives once
after that. -/
theorem life_of_deposit (h : Traced Step Accounts.empty os t) (d : δ) :
    Life (os.filterMap (·.deposit d)) ∧ t.deposits d = (os.filterMap (·.deposit d)).getLast? :=
  life_of_traced (·.deposit d) (·.deposits d) rfl (fun hs => hs.deposits d) follows_of_deposit h

/-- So it is with a payout, which is given back at most once. -/
theorem life_of_payout (h : Traced Step Accounts.empty os t) (p : π) :
    Life (os.filterMap (·.payout p)) ∧ t.payouts p = (os.filterMap (·.payout p)).getLast? :=
  life_of_traced (·.payout p) (·.payouts p) rfl (fun hs => hs.payouts p) follows_of_payout h

end Lives

end Accounting
