/-! # Stacks that can be cleaned from the bottom

A stack is a list whose last element is the top. Besides pushing and popping, a
stack can be gone through from the bottom: a check says of each element whether it
is deleted and whether to go on.
-/

namespace Kitex.Container.Stack

universe u

variable {α : Type u}

def push (stack : List α) (a : α) : List α := stack ++ [a]

/-- The top and the rest, if there is one. -/
def pop (stack : List α) : Option (α × List α) :=
  stack.getLast?.map fun top => (top, stack.dropLast)

/-- The deleted elements and the kept ones, from the bottom. -/
def rangeDelete (checking : α → Bool × Bool) : List α → List α × List α
  | [] => ([], [])
  | a :: rest =>
    let (delete, onward) := checking a
    let (deleted, kept) := if onward then rangeDelete checking rest else ([], rest)
    if delete then (a :: deleted, kept) else (deleted, a :: kept)

theorem eq_push_of_pop {stack rest : List α} {top : α} (hpop : pop stack = some (top, rest)) :
    stack = push rest top := by
  obtain ⟨last, hlast, heq⟩ := Option.map_eq_some_iff.mp hpop
  cases heq
  obtain ⟨init, rfl⟩ := List.getLast?_eq_some_iff.mp hlast
  simp [push]

theorem countP_push (p : α → Bool) (stack : List α) (a : α) :
    (push stack a).countP p = stack.countP p + (p a).toNat := by
  cases hp : p a <;> simp [push, hp]

/-- Going through a stack loses nothing. -/
theorem perm_rangeDelete (checking : α → Bool × Bool) (stack : List α) :
    ((rangeDelete checking stack).1 ++ (rangeDelete checking stack).2).Perm stack := by
  induction stack with
  | nil => exact .refl _
  | cons a rest ih =>
    have hrest : ((if (checking a).2 then rangeDelete checking rest else ([], rest)).1 ++
        (if (checking a).2 then rangeDelete checking rest else ([], rest)).2).Perm rest := by
      split
      next => exact ih
      next => exact .refl _
    simp only [rangeDelete]
    split
    next => exact hrest.cons a
    next => exact List.perm_middle.trans (hrest.cons a)

theorem countP_rangeDelete_le (p : α → Bool) (checking : α → Bool × Bool) (stack : List α) :
    (rangeDelete checking stack).2.countP p ≤ stack.countP p := by
  rw [← (perm_rangeDelete checking stack).countP_eq, List.countP_append]
  exact Nat.le_add_left ..

theorem mem_of_mem_rangeDelete {checking : α → Bool × Bool} {stack : List α} {a : α}
    (hmem : a ∈ (rangeDelete checking stack).2) : a ∈ stack :=
  (perm_rangeDelete checking stack).mem_iff.mp (List.mem_append_right _ hmem)

end Kitex.Container.Stack
