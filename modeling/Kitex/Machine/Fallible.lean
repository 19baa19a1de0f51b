import Mathlib.Init

/-! # Computations that fail and keep their state

Rules for `EStateM`, where an error comes with the state at which it happens. A sequence of steps
is followed from a state, step by step; and if it has succeeded then each of its steps has.
-/

namespace Kitex.Machine.Fallible

variable {ε ε' σ α β : Type} {x : EStateM ε σ α} {f : α → EStateM ε σ β} {s s' : σ} {a : α} {b : β}
  {e : ε} {g : ε → ε'}

theorem bind_of_ok (h : x s = .ok a s') : (x >>= f) s = f a s' := by
  change EStateM.bind x f s = _
  simp [EStateM.bind, h]

theorem bind_of_error (h : x s = .error e s') : (x >>= f) s = .error e s' := by
  change EStateM.bind x f s = _
  simp [EStateM.bind, h]

theorem bind_eq_ok (h : (x >>= f) s = .ok b s') : ∃ a t, x s = .ok a t ∧ f a t = .ok b s' := by
  cases hx : x s with
  | ok a t =>
    rw [bind_of_ok hx] at h
    exact ⟨a, t, rfl, h⟩
  | error e t =>
    rw [bind_of_error hx] at h
    cases h

@[simp]
theorem get_bind {f : σ → EStateM ε σ β} : (get >>= f) s = f s s := rfl

@[simp]
theorem set_bind {f : PUnit → EStateM ε σ β} : (set s' >>= f) s = f ⟨⟩ s' := rfl

@[simp]
theorem modify_bind {g : σ → σ} {f : PUnit → EStateM ε σ β} :
    (modify g >>= f) s = f ⟨⟩ (g s) := rfl

@[simp]
theorem throw_bind {f : α → EStateM ε σ β} : ((throw e : EStateM ε σ α) >>= f) s = .error e s := rfl

@[simp]
theorem pure_apply : (pure a : EStateM ε σ α) s = .ok a s := rfl

@[simp]
theorem set_apply : (set s' : EStateM ε σ PUnit) s = .ok ⟨⟩ s' := rfl

@[simp]
theorem modify_apply {g : σ → σ} : (modify g : EStateM ε σ PUnit) s = .ok ⟨⟩ (g s) := rfl

@[simp]
theorem throw_apply : (throw e : EStateM ε σ α) s = .error e s := rfl

theorem adaptExcept_of_ok (h : x s = .ok a s') : (EStateM.adaptExcept g x) s = .ok a s' := by
  simp [EStateM.adaptExcept, h]

theorem adaptExcept_of_error (h : x s = .error e s') : (EStateM.adaptExcept g x)
    s = .error (g e) s' := by
  simp [EStateM.adaptExcept, h]

theorem adaptExcept_bind : EStateM.adaptExcept g (x >>= f) =
    EStateM.adaptExcept g x >>= fun a => EStateM.adaptExcept g (f a) := by
  funext s
  cases hx : x s with
  | ok a t =>
    rw [bind_of_ok (adaptExcept_of_ok hx)]
    simp only [EStateM.adaptExcept, bind_of_ok hx]
  | error e t =>
    rw [bind_of_error (adaptExcept_of_error hx)]
    exact adaptExcept_of_error (bind_of_error hx)

end Kitex.Machine.Fallible
