import Mathlib.Logic.Basic

/-!
Programs that talk to a shared world, as trees of commands.

A program either returns, throws, or issues one command and continues with
whatever the world answers. A command may fail, so the answer is an `Except`;
everything a program does between two commands is ordinary functional code and
happens in no time at all. That is the granularity at which concurrent programs
interleave: one command, one step.

The type is a monad with exceptions, so a program text can be written with
`do`, `throw` and `tryCatch` in the order of the code it stands for.
-/

namespace Concurrency

/-- What programs may ask of the world: the commands, the type of the answer
to each, and the type of exceptions. -/
structure Signature where
  Cmd : Type
  Resp : Cmd → Type
  Err : Type

/-- A program over the commands of `S` with results in `α`. -/
inductive Prog (S : Signature) (α : Type) : Type
  | ret (a : α)
  | fail (e : S.Err)
  | op (c : S.Cmd) (k : Except S.Err (S.Resp c) → Prog S α)

namespace Prog

variable {S : Signature} {α β γ : Type}

/-- Issue one command; a failed command throws. -/
def perform (c : S.Cmd) : Prog S (S.Resp c) :=
  .op c fun
    | .ok a => .ret a
    | .error e => .fail e

protected def bind : Prog S α → (α → Prog S β) → Prog S β
  | .ret a, f => f a
  | .fail e, _ => .fail e
  | .op c k, f => .op c fun r => (k r).bind f

/-- Run `p`; where it throws, continue with the handler instead. -/
protected def tryCatch : Prog S α → (S.Err → Prog S α) → Prog S α
  | .ret a, _ => .ret a
  | .fail e, h => h e
  | .op c k, h => .op c fun r => (k r).tryCatch h

instance : Monad (Prog S) where
  pure := .ret
  bind := .bind

instance : MonadExceptOf S.Err (Prog S) where
  throw := .fail
  tryCatch := .tryCatch

@[simp] theorem pure_eq (a : α) : (pure a : Prog S α) = .ret a := rfl

@[simp] theorem throw_eq (e : S.Err) : (throw e : Prog S α) = .fail e := rfl

@[simp] theorem bind_eq (p : Prog S α) (f : α → Prog S β) : p >>= f = p.bind f := rfl

@[simp] theorem tryCatch_eq (p : Prog S α) (h : S.Err → Prog S α) :
    tryCatch p h = p.tryCatch h := rfl

@[simp] theorem ret_bind (a : α) (f : α → Prog S β) : (ret a : Prog S α).bind f = f a := rfl

@[simp] theorem fail_bind (e : S.Err) (f : α → Prog S β) :
    (fail e : Prog S α).bind f = fail e := rfl

@[simp] theorem op_bind (c : S.Cmd) (k : Except S.Err (S.Resp c) → Prog S α)
    (f : α → Prog S β) : (op c k).bind f = op c fun r => (k r).bind f := rfl

theorem bind_assoc (p : Prog S α) (f : α → Prog S β) (g : β → Prog S γ) :
    (p.bind f).bind g = p.bind fun a => (f a).bind g := by
  induction p with
  | ret a => rfl
  | fail e => rfl
  | op c k ih => simp only [op_bind, ih]

/-- The program has come to an end, with a result or with an exception. -/
def Done : Prog S α → Prop
  | .ret _ | .fail _ => True
  | .op .. => False

end Prog

end Concurrency
