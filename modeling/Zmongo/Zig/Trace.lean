import Zmongo.Zig.Outcome
import Mathlib.Data.Nat.Notation

/-!
# Runs that read an input

A scanner over an input of unknown origin is safe when it never reads past the end, and that is a
statement about everything it does on the way, not about what it returns.  `Traced ε α` is an
`Outcome ε α` together with the `Event`s of the run that led to it: the index of every byte read
and every position the scanner moved to, in order.

`Safe n x` says that a run over an input of length `n` stays inside it unless the bounds check
stops it.  A run that is `Safe` and `Ends` has all its events `Within` the input
(`Safe.within_of_ends`).  `SafeTo n Q x` adds what is known of the value the run returns, and that
is the form that composes: `SafeTo.bind` asks for it of the continuation only on the values that
satisfy the condition of the first part.
-/

set_option autoImplicit false

namespace Zig

/-- What a scanner does to its input. -/
inductive Event where
  /-- The byte at index `i` is read. -/
  | read (i : ℕ)
  /-- The position becomes `i`. -/
  | seek (i : ℕ)
  deriving DecidableEq, Repr

/-- The event stays inside an input of length `n`.  The end of the input is a position, but there
is nothing to read there. -/
def Event.Within (n : ℕ) : Event → Prop
  | read i => i < n
  | seek i => i ≤ n

instance (n : ℕ) : DecidablePred (Event.Within n)
  | .read i => inferInstanceAs (Decidable (i < n))
  | .seek i => inferInstanceAs (Decidable (i ≤ n))

@[simp] theorem Event.within_read (n i : ℕ) : (Event.read i).Within n ↔ i < n := Iff.rfl

@[simp] theorem Event.within_seek (n i : ℕ) : (Event.seek i).Within n ↔ i ≤ n := Iff.rfl

/-- A run: the events on the way and the outcome at the end. -/
structure Traced (ε α : Type) where
  /-- What the run did, in order. -/
  events : List Event
  /-- How it ended. -/
  outcome : Outcome ε α
  deriving DecidableEq, Repr

namespace Traced

variable {ε α β : Type}

/-- A run without events. -/
def lift (x : Outcome ε α) : Traced ε α := ⟨[], x⟩

/-- The run `x` after the events `es`. -/
def after (es : List Event) (x : Traced ε α) : Traced ε α := ⟨es ++ x.events, x.outcome⟩

instance : Monad (Traced ε) where
  pure a := lift (.ok a)
  bind x f := match x.outcome with
    | .ok a => after x.events (f a)
    | .error e => ⟨x.events, .error e⟩
    | .trap t => ⟨x.events, .trap t⟩

/-- Move to position `i`. -/
def seek (i : ℕ) : Traced ε Unit := ⟨[.seek i], .ok ()⟩

/-- `input[i]` -/
def read (input : List α) (i : ℕ) : Traced ε α :=
  ⟨[.read i], match input[i]? with
    | some a => .ok a
    | none => .trap .indexOutOfBounds⟩

/-! ## The outcome of a composite run -/

@[simp] theorem outcome_pure (a : α) : (pure a : Traced ε α).outcome = .ok a := rfl

@[simp] theorem outcome_lift (x : Outcome ε α) : (lift x).outcome = x := rfl

@[simp] theorem outcome_seek (i : ℕ) : (seek i : Traced ε Unit).outcome = .ok () := rfl

@[simp] theorem outcome_bind (x : Traced ε α) (f : α → Traced ε β) :
    (x >>= f).outcome = x.outcome >>= fun a ↦ (f a).outcome := by
  obtain ⟨es, o⟩ := x
  cases o <;> rfl

theorem mem_events_bind {x : Traced ε α} {f : α → Traced ε β} {e : Event}
    (h : e ∈ (x >>= f).events) :
    e ∈ x.events ∨ ∃ a, x.outcome = .ok a ∧ e ∈ (f a).events := by
  obtain ⟨es, o⟩ := x
  cases o with
  | ok a => exact (List.mem_append.mp h).imp id fun hf ↦ ⟨a, rfl, hf⟩
  | error _ => exact .inl h
  | trap _ => exact .inl h

theorem outcome_read (input : List α) {i : ℕ} {a : α} (h : input[i]? = some a) :
    (read input i : Traced ε α).outcome = .ok a := by
  rw [read, h]

@[simp] theorem outcome_ite {p : Prop} [Decidable p] (x y : Traced ε α) :
    (if p then x else y).outcome = if p then x.outcome else y.outcome := apply_ite outcome p x y

/-! ## Staying inside the input -/

/-- The run stays inside an input of length `n` unless the bounds check stops it. -/
def Safe (n : ℕ) (x : Traced ε α) : Prop :=
  x.outcome ≠ .trap .indexOutOfBounds → ∀ e ∈ x.events, e.Within n

theorem Safe.within_of_ends {n : ℕ} {x : Traced ε α} (h : x.Safe n) (hx : x.outcome.Ends) :
    ∀ e ∈ x.events, e.Within n :=
  h (Outcome.ends_iff.mp hx _)

/-- The run is safe, and its value, if it has one, satisfies `Q`. -/
def SafeTo (n : ℕ) (Q : α → Prop) (x : Traced ε α) : Prop :=
  x.Safe n ∧ ∀ a, x.outcome = .ok a → Q a

section SafeTo

variable {n : ℕ} {P : α → Prop} {Q : β → Prop}

theorem SafeTo.mono {P' : α → Prop} {x : Traced ε α} (hx : x.SafeTo n P) (h : ∀ a, P a → P' a) :
    x.SafeTo n P' :=
  ⟨hx.1, fun a ha ↦ h a (hx.2 a ha)⟩

theorem safeTo_lift {x : Outcome ε α} (h : ∀ a, x = .ok a → P a) : (lift x).SafeTo n P :=
  ⟨fun _ _ he ↦ absurd he List.not_mem_nil, h⟩

theorem safeTo_pure {a : α} (h : P a) : (pure a : Traced ε α).SafeTo n P :=
  safeTo_lift fun _ hb ↦ Outcome.ok.inj hb ▸ h

theorem safeTo_seek {i : ℕ} (h : i ≤ n) : (seek i : Traced ε Unit).SafeTo n fun _ ↦ True := by
  refine ⟨fun _ e he ↦ ?_, fun _ _ ↦ trivial⟩
  rw [seek, List.mem_singleton] at he
  rw [he]
  exact h

/-- A read that returns was inside. -/
theorem safeTo_read (input : List α) (i : ℕ) :
    (read input i : Traced ε α).SafeTo input.length fun _ ↦ i < input.length := by
  have hlt : (read input i : Traced ε α).outcome ≠ .trap .indexOutOfBounds → i < input.length := by
    intro hx
    exact Nat.lt_of_not_le fun hi ↦ hx (by rw [read, List.getElem?_eq_none hi])
  refine ⟨fun hx e he ↦ ?_, fun a ha ↦ hlt (by simp [ha])⟩
  rw [read, List.mem_singleton] at he
  rw [he]
  exact hlt hx

/-- The composition rule: the continuation is asked about only on values that satisfy `P`. -/
theorem SafeTo.bind {x : Traced ε α} {f : α → Traced ε β} (hx : x.SafeTo n P)
    (hf : ∀ a, P a → (f a).SafeTo n Q) : (x >>= f).SafeTo n Q := by
  refine ⟨?_, ?_⟩
  · intro hout e he
    rcases mem_events_bind he with he | ⟨a, hxa, he⟩
    · refine hx.1 (fun h ↦ hout ?_) e he
      rw [outcome_bind, h, Outcome.trap_bind]
    · refine (hf a (hx.2 a hxa)).1 (fun h ↦ hout ?_) e he
      rw [outcome_bind, hxa, Outcome.ok_bind, h]
  · intro b hb
    rw [outcome_bind, Outcome.bind_eq_ok_iff] at hb
    obtain ⟨a, hxa, hab⟩ := hb
    exact (hf a (hx.2 a hxa)).2 b hab

/-- An outcome in front of a run reads nothing. -/
theorem safeTo_lift_bind {x : Outcome ε α} {f : α → Traced ε β} (hf : ∀ a, (f a).SafeTo n Q) :
    (lift x >>= f).SafeTo n Q :=
  SafeTo.bind (P := fun _ ↦ True) (safeTo_lift fun _ _ ↦ trivial) fun a _ ↦ hf a

theorem safeTo_ite {p : Prop} [Decidable p] {x y : Traced ε α} (hx : p → x.SafeTo n P)
    (hy : ¬p → y.SafeTo n P) : (if p then x else y).SafeTo n P := by
  split
  · exact hx ‹p›
  · exact hy ‹¬p›

end SafeTo

end Traced
end Zig
