import Mathlib.Data.Prod.Lex

/-! # Sorted lists as rings

The successor of a point on a ring is the first element after it; behind the
last element the ring goes on with the first one. `search` finds it in a sorted list
by bisection. The elements are compared by how far ahead of the point they are, so
that the successor is a least element, and depends only on which elements there are.
-/

namespace Kitex.Container

/-! ## Bisection -/

/-- The loop of `search`; `fuel` bounds the length of the interval. -/
def searchLoop (f : Nat → Bool) : (fuel i j : Nat) → Nat
  | 0, i, _ => i
  | fuel + 1, i, j =>
    if i < j then
      let h := (i + j) / 2
      if f h then searchLoop f fuel i h else searchLoop f fuel (h + 1) j
    else i

/-- The first number below `n` at which `f` holds, or `n`, if `f` holds from there on. -/
def search (n : Nat) (f : Nat → Bool) : Nat := searchLoop f n 0 n

theorem searchLoop_le (f : Nat → Bool) {fuel i j : Nat} (hij : i ≤ j) :
    searchLoop f fuel i j ≤ j := by
  induction fuel generalizing i j with
  | zero => exact hij
  | succ fuel ih =>
    simp only [searchLoop]
    split
    next hlt =>
      split
      next => exact Nat.le_trans (ih (by omega)) (by omega)
      next => exact ih (by omega)
    next => exact hij

theorem search_le (n : Nat) (f : Nat → Bool) : search n f ≤ n :=
  searchLoop_le f (Nat.zero_le n)

variable {f : Nat → Bool} {n : Nat}

/-- What is below the result fails, and what is not holds. -/
theorem searchLoop_spec (hmono : ∀ a b, a ≤ b → b < n → f a = true → f b = true) {fuel i j : Nat}
    (hij : i ≤ j) (hjn : j ≤ n) (hfuel : j - i ≤ fuel) (hbelow : ∀ k < i, f k = false)
    (habove : ∀ k, j ≤ k → k < n → f k = true) : (∀ k < searchLoop f fuel i j, f k = false) ∧
      ∀ k, searchLoop f fuel i j ≤ k → k < n → f k = true := by
  induction fuel generalizing i j with
  | zero =>
    obtain rfl : i = j := by omega
    exact ⟨hbelow, habove⟩
  | succ fuel ih =>
    simp only [searchLoop]
    split
    next hlt =>
      split
      next hmid =>
        refine ih (by omega) (by omega) (by omega) hbelow ?_
        exact fun k hk hkn => hmono _ k hk hkn hmid
      next hmid =>
        refine ih (by omega) hjn (by omega) ?_ habove
        intro k hk
        by_contra hfk
        have hkmid : k ≤ (i + j) / 2 := by omega
        exact hmid (hmono k _ hkmid (by omega) (by simpa using hfk))
    next hge =>
      obtain rfl : i = j := by omega
      exact ⟨hbelow, habove⟩

theorem search_spec (hmono : ∀ a b, a ≤ b → b < n → f a = true → f b = true) :
    (∀ k < search n f, f k = false) ∧ ∀ k, search n f ≤ k → k < n → f k = true :=
  searchLoop_spec hmono (Nat.zero_le n) (Nat.le_refl n) (Nat.sub_le n 0) nofun
    fun _ hk hkn => absurd hkn (Nat.not_lt.mpr hk)

/-! ## Successors -/

namespace Ring

universe u v

variable {α : Type u} {β : Type v} [LinearOrder α] {nodes : List β} {point a b : α}

/-- How far an element is ahead of a point: those after the point come first. -/
def ahead (point a : α) : Bool ×ₗ α := toLex (decide (a ≤ point), a)

theorem ahead_injective (point : α) : Function.Injective (ahead point) := by
  intro a b hab
  exact congrArg (fun pair => (ofLex pair).2) hab

theorem ahead_le_of_lt (ha : point < a) (hab : point < b → a ≤ b) :
    ahead point a ≤ ahead point b := by
  rw [ahead, ahead, Prod.Lex.toLex_le_toLex, decide_eq_false ha.not_ge]
  by_cases hb : point < b
  · exact .inr ⟨(decide_eq_false hb.not_ge).symm, hab hb⟩
  · exact .inl (by simp [decide_eq_true (not_lt.mp hb)])

theorem ahead_le_of_le (hb : b ≤ point) (hab : a ≤ b) : ahead point a ≤ ahead point b := by
  rw [ahead, ahead, Prod.Lex.toLex_le_toLex, decide_eq_true hb, decide_eq_true (hab.trans hb)]
  exact .inr ⟨rfl, hab⟩

/-- What is least ahead is the least element after the point; if there is none, it is the least
element. -/
theorem least_after_of_ahead_le {point a : α} {s : List α}
    (hleast : ∀ b ∈ s, ahead point a ≤ ahead point b) :
    (point < a ∧ ∀ b ∈ s, point < b → a ≤ b) ∨ ∀ b ∈ s, b ≤ point ∧ a ≤ b := by
  by_cases ha : point < a
  · refine .inl ⟨ha, fun b hb hafter => ?_⟩
    have hle := hleast b hb
    rw [ahead, ahead, Prod.Lex.toLex_le_toLex] at hle
    simpa [ha.not_ge, hafter.not_ge] using hle
  · refine .inr fun b hb => ?_
    have hle := hleast b hb
    rw [ahead, ahead, Prod.Lex.toLex_le_toLex] at hle
    simpa [not_lt.mp ha, Bool.lt_iff, eq_comm] using hle

/-- The index of the successor of a point in a list that is sorted by `hash`. -/
def successor (hash : β → α) (nodes : List β) (point : α) : Nat :=
  let index := search nodes.length fun i => nodes[i]?.any fun node => point < hash node
  if index = nodes.length then 0 else index

theorem successor_lt (hash : β → α) (hnodes : nodes ≠ []) (point : α) :
    successor hash nodes point < nodes.length := by
  have hpos := List.length_pos_iff.mpr hnodes
  have hle := search_le nodes.length fun i => nodes[i]?.any fun node => point < hash node
  simp only [successor]
  split <;> omega

/-- The successor is a least element. -/
theorem successor_least {hash : β → α} (hsorted : nodes.Pairwise fun a b => hash a ≤ hash b)
    {point : α} {node : β} (hnode : nodes[successor hash nodes point]? = some node) {other : β}
    (hother : other ∈ nodes) : ahead point (hash node) ≤ ahead point (hash other) := by
  have hle : ∀ {a b : Nat} {x y : β}, a ≤ b → nodes[a]? = some x → nodes[b]? = some y →
      hash x ≤ hash y := by
    intro a b x y hab hx hy
    obtain ⟨ha, rfl⟩ := List.getElem?_eq_some_iff.mp hx
    obtain ⟨hb, rfl⟩ := List.getElem?_eq_some_iff.mp hy
    rcases Nat.lt_or_eq_of_le hab with hlt | rfl
    · exact List.pairwise_iff_getElem.mp hsorted a b ha hb hlt
    · exact le_refl _
  have hspec := @search_spec (fun i => nodes[i]?.any fun node => point < hash node)
    nodes.length ?_
  · obtain ⟨hbelow, habove⟩ := hspec
    obtain ⟨i, hi⟩ := List.mem_iff_getElem?.mp hother
    have hin := (List.getElem?_eq_some_iff.mp hi).1
    simp only [successor] at hnode
    split at hnode
    next hend =>
      -- no element is after the point, and the first one is the least
      have hfail := hbelow i (hend.symm ▸ hin)
      simp only [hi, Option.any_some, decide_eq_false_iff_not, not_lt] at hfail
      exact ahead_le_of_le hfail (hle (Nat.zero_le i) hnode hi)
    next hend =>
      have hafter := habove _ (Nat.le_refl _) (List.getElem?_eq_some_iff.mp hnode).1
      simp only [hnode, Option.any_some, decide_eq_true_eq] at hafter
      refine ahead_le_of_lt hafter fun hlt => hle ?_ hnode hi
      by_contra hindex
      have hfail := hbelow i (Nat.lt_of_not_le hindex)
      simp only [hi, Option.any_some, decide_eq_false_iff_not] at hfail
      exact hfail hlt
  · intro a b hab hb ha
    have hx : nodes[a]? = some nodes[a] := List.getElem?_eq_getElem (Nat.lt_of_le_of_lt hab hb)
    have hy : nodes[b]? = some nodes[b] := List.getElem?_eq_getElem hb
    simp only [hx, hy, Option.any_some, decide_eq_true_eq] at ha ⊢
    exact lt_of_lt_of_le ha (hle hab hx hy)

end Ring

end Kitex.Container
