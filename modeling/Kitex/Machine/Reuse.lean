import Mathlib.Data.List.Basic

/-! # Records that are used again

A record is used, reset, and used again. What a reset leaves of a use is its residue, and what can
be read from a record that is ready for the next use depends on nothing but the residue. The uses
then act on the residue alone, and they can be told apart afterwards if and only if the residue has
changed.
-/

namespace Kitex.Machine

universe uState uUse uView uResidue

structure Reuse (State : Type uState) (Use : Type uUse) (View : Type uView)
    (Residue : Type uResidue) where
  /-- a use and the reset after it -/
  serve : State → Use → State
  view : State → View
  residue : State → Residue
  leave : Residue → Use → Residue
  Ready : State → Prop
  residue_serve : ∀ s u, residue (serve s u) = leave (residue s) u
  ready_serve : ∀ s u, Ready s → Ready (serve s u)
  view_eq_iff : ∀ s s', Ready s → Ready s' → (view s = view s' ↔ residue s = residue s')

namespace Reuse

variable {State : Type uState} {Use : Type uUse} {View : Type uView} {Residue : Type uResidue}
variable (r : Reuse State Use View Residue) {start : State}

theorem ready_foldl (hstart : r.Ready start) (uses : List Use) :
    r.Ready (uses.foldl r.serve start) := by
  induction uses generalizing start with
  | nil => exact hstart
  | cons use uses ih => exact ih (r.ready_serve start use hstart)

theorem residue_foldl (uses : List Use) :
    r.residue (uses.foldl r.serve start) = uses.foldl r.leave (r.residue start) :=
  (List.foldl_hom r.residue fun s u => (r.residue_serve s u).symm).symm

/-- What can be read after some uses. -/
theorem view_foldl_eq_iff (hstart : r.Ready start) (uses : List Use) :
    r.view (uses.foldl r.serve start) = r.view start ↔
      uses.foldl r.leave (r.residue start) = r.residue start := by
  rw [r.view_eq_iff _ _ (r.ready_foldl hstart uses) hstart, r.residue_foldl]

/-- The same can be read before each use if and only if each use leaves the residue that there was
at the beginning. -/
theorem isolated_iff (hstart : r.Ready start) (uses : List Use) :
    (∀ first second, uses = first ++ second →
        r.view (first.foldl r.serve start) = r.view start) ↔
      ∀ use ∈ uses, r.leave (r.residue start) use = r.residue start := by
  constructor
  · intro hviews use hmem
    obtain ⟨first, second, rfl⟩ := List.append_of_mem hmem
    have hbefore := (r.view_foldl_eq_iff hstart first).mp (hviews first (use :: second) rfl)
    have hafter := (r.view_foldl_eq_iff hstart (first ++ [use])).mp
      (hviews (first ++ [use]) second (by simp))
    rwa [List.foldl_append, hbefore] at hafter
  · rintro hleave first second rfl
    rw [r.view_foldl_eq_iff hstart]
    induction first with
    | nil => rfl
    | cons use first ih =>
      rw [List.foldl_cons, hleave use (by simp)]
      exact ih fun other hother => hleave other (List.mem_cons_of_mem use hother)

end Reuse

end Kitex.Machine
