import Mathlib.Tactic.TypeStar

/-!
# How a call ends in a safety-checked program

A call of a function of type `!T` in a build with safety checks ends in one of three ways: with a
value, with an error of its error set, or by being stopped by one of the checks the compiler put
in.  `Outcome` has one constructor for each.  The third is not an error of the language: no caller
can catch it, and in a build without the checks the behaviour at that point is undefined.  So
"`f` is safe on `x`" is `(f x).Ends`, and it is a separate question from what `f` returns.

`Outcome` is a monad, `x >>= f` being `try x` followed by `f`.  The three `bind_eq_*_iff` lemmas
are how a run is taken apart again, and `ok_bind` how one is put together.
-/

set_option autoImplicit false

namespace Zig

/-- The safety check that stopped a run. -/
inductive Trap where
  /-- The exact result of an arithmetic operation does not fit the type it is computed at. -/
  | integerOverflow
  /-- An integer cast to a type that does not hold its value. -/
  | castTruncated
  /-- A read, a write or a slice outside the memory it is taken from. -/
  | indexOutOfBounds
  /-- A false assertion, or an error asserted not to occur. -/
  | reachedUnreachable
  deriving DecidableEq, Repr

/-- How a call ends. -/
inductive Outcome (ε α : Type) where
  /-- With a value. -/
  | ok (a : α)
  /-- With an error of the error set `ε`. -/
  | error (e : ε)
  /-- Stopped by a safety check. -/
  | trap (t : Trap)
  deriving DecidableEq, Repr

namespace Outcome

variable {ε α β γ : Type}

/-- Go on with the value of `x`; an error and a trap end the run. -/
protected def bind : Outcome ε α → (α → Outcome ε β) → Outcome ε β
  | ok a, f => f a
  | error e, _ => error e
  | trap t, _ => trap t

instance : Monad (Outcome ε) where
  pure := ok
  bind := Outcome.bind

@[simp] theorem pure_eq_ok (a : α) : (pure a : Outcome ε α) = ok a := rfl

-- Proved by `(rfl)`, so that `simp` rewrites with them: by unfolding, the kernel would evaluate
-- what stands in `f` as well.
@[simp] theorem ok_bind (a : α) (f : α → Outcome ε β) : ok a >>= f = f a := (rfl)

@[simp] theorem error_bind (e : ε) (f : α → Outcome ε β) : error e >>= f = error e := (rfl)

@[simp] theorem trap_bind (t : Trap) (f : α → Outcome ε β) : trap t >>= f = trap t := (rfl)

theorem bind_eq_ok_iff {x : Outcome ε α} {f : α → Outcome ε β} {b : β} :
    x >>= f = ok b ↔ ∃ a, x = ok a ∧ f a = ok b := by
  cases x <;> simp

theorem bind_eq_error_iff {x : Outcome ε α} {f : α → Outcome ε β} {e : ε} :
    x >>= f = error e ↔ x = error e ∨ ∃ a, x = ok a ∧ f a = error e := by
  cases x <;> simp

theorem bind_eq_trap_iff {x : Outcome ε α} {f : α → Outcome ε β} {t : Trap} :
    x >>= f = trap t ↔ x = trap t ∨ ∃ a, x = ok a ∧ f a = trap t := by
  cases x <;> simp

theorem bind_assoc (x : Outcome ε α) (f : α → Outcome ε β) (g : β → Outcome ε γ) :
    x >>= f >>= g = x >>= fun a ↦ f a >>= g := by
  cases x <;> rfl

/-- What comes after `x` matters for the values of `x` only. -/
theorem bind_congr {x : Outcome ε α} {f g : α → Outcome ε β} (h : ∀ a, x = ok a → f a = g a) :
    x >>= f = x >>= g := by
  cases x with
  | ok a => exact h a rfl
  | error e => rfl
  | trap t => rfl

/-- The call ends by itself, with a value or an error. -/
def Ends : Outcome ε α → Prop
  | trap _ => False
  | _ => True

instance : DecidablePred (Ends : Outcome ε α → Prop)
  | ok _ => .isTrue trivial
  | error _ => .isTrue trivial
  | trap _ => .isFalse id

@[simp] theorem ends_ok (a : α) : (ok a : Outcome ε α).Ends := trivial

@[simp] theorem ends_error (e : ε) : (error e : Outcome ε α).Ends := trivial

@[simp] theorem not_ends_trap (t : Trap) : ¬(trap t : Outcome ε α).Ends := id

theorem ends_iff {x : Outcome ε α} : x.Ends ↔ ∀ t, x ≠ trap t := by
  cases x <;> simp

theorem Ends.bind {x : Outcome ε α} {f : α → Outcome ε β} (hx : x.Ends)
    (hf : ∀ a, x = ok a → (f a).Ends) : (x >>= f).Ends := by
  cases x with
  | ok a => exact hf a rfl
  | error e => exact ends_error e
  | trap t => exact absurd hx (not_ends_trap t)

/-- The only error the call can end with. -/
def FailsWith (e : ε) (x : Outcome ε α) : Prop := ∀ e', x = error e' → e' = e

theorem failsWith_ok (e : ε) (a : α) : (ok a : Outcome ε α).FailsWith e := by
  rintro e' ⟨⟩

theorem failsWith_error (e : ε) : (error e : Outcome ε α).FailsWith e := by
  rintro e' ⟨⟩
  rfl

theorem failsWith_trap (e : ε) (t : Trap) : (trap t : Outcome ε α).FailsWith e := by
  rintro e' ⟨⟩

theorem FailsWith.bind {e : ε} {x : Outcome ε α} {f : α → Outcome ε β} (hx : x.FailsWith e)
    (hf : ∀ a, (f a).FailsWith e) : (x >>= f).FailsWith e := by
  intro e' h
  rcases bind_eq_error_iff.mp h with h | ⟨a, -, h⟩
  · exact hx e' h
  · exact hf a e' h

end Outcome
end Zig
