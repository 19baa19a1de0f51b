import Mathlib.Data.List.AList

/-! # Assignments to maps and lookups in changed maps -/

namespace Kitex.Container

universe u v

variable {κ : Type u} {β : Type v} [DecidableEq κ] {m : AList fun _ : κ => β} {k k' : κ} {v v' : β}

/-- Sets the value of a key, at its place if it is there and at the end if not. The equality of keys
need not be an equivalence: a key may differ from itself, as a NaN does. -/
def assign {κ : Type u} (eq : κ → κ → Bool) (k : κ) (v : β) : List (κ × β) → List (κ × β)
  | [] => [(k, v)]
  | (k', v') :: m => if eq k k' then (k, v) :: m else (k', v') :: assign eq k v m

/-- What is found after an insertion is the new value, or was there before. -/
theorem lookup_insert_cases (hfound : (m.insert k v).lookup k' = some v') :
    (k' = k ∧ v' = v) ∨ (k' ≠ k ∧ m.lookup k' = some v') := by
  by_cases heq : k' = k
  · subst heq
    rw [AList.lookup_insert, Option.some.injEq] at hfound
    exact .inl ⟨rfl, hfound.symm⟩
  · rw [AList.lookup_insert_ne heq] at hfound
    exact .inr ⟨heq, hfound⟩

/-- An insertion under a new key leaves what is found. -/
theorem lookup_insert_of_none (hnone : m.lookup k = none) (hfound : m.lookup k' = some v') :
    (m.insert k v).lookup k' = some v' := by
  have hne : k' ≠ k := by
    rintro rfl
    nomatch hnone.symm.trans hfound
  rwa [AList.lookup_insert_ne hne]

theorem lookup_erase_cases (hfound : (m.erase k).lookup k' = some v') :
    k' ≠ k ∧ m.lookup k' = some v' := by
  by_cases heq : k' = k
  · subst heq
    rw [AList.lookup_erase] at hfound
    nomatch hfound
  · rw [AList.lookup_erase_ne heq] at hfound
    exact ⟨heq, hfound⟩

end Kitex.Container
