import Mathlib.Data.List.Chain
import Mathlib.Data.List.Nodup
import Mathlib.Logic.Function.Basic

/-! # Intrusive doubly linked lists

The links live in the elements themselves, between two sentinels. An element
is removed without naming the list it is in, and an element outside the list
has both links cleared. `Represents` ties the pointer structure to the plain
list of its elements; each operation is then an operation on that list.
-/

namespace Kitex.Container

universe u

variable {α : Type u}

/-- The nodes of an intrusive list: two sentinels and the linked elements. -/
inductive Cell (α : Type u) where
  | head
  | tail
  | elem (a : α)
  deriving DecidableEq

/-- The `next` and `prev` pointers of every node; `none` is the nil pointer. -/
structure Links (α : Type u) where
  next : Cell α → Option (Cell α)
  prev : Cell α → Option (Cell α)

namespace Links

/-- The second node follows the first one, in both directions. -/
def Joined (links : Links α) (left right : Cell α) : Prop :=
  links.next left = some right ∧ links.prev right = some left

/-- The nodes met on the way from the first sentinel to the second one. -/
def path (elems : List α) : List (Cell α) :=
  .head :: (elems.map .elem ++ [.tail])

/-- The pointers form exactly the list of the given elements, without
repetition, and every other element is unlinked. -/
structure Represents (links : Links α) (elems : List α) : Prop where
  chain : List.IsChain links.Joined (path elems)
  nodup : elems.Nodup
  free : ∀ a, a ∉ elems → links.next (.elem a) = none ∧ links.prev (.elem a) = none

theorem path_cons (a : α) (elems : List α) :
    path (a :: elems) = .head :: .elem a :: (elems.map .elem ++ [.tail]) := rfl

variable {elems : List α} {links : Links α} {cell left right : Cell α} {a : α}

open Cell

theorem path_nodup (hnodup : elems.Nodup) : (path elems).Nodup := by
  have helems : (elems.map elem).Nodup := hnodup.map fun _ _ heq => elem.inj heq
  simp [path, List.nodup_append, helems]

/-- A chain survives when the pointers it follows are kept. -/
theorem isChain_of_agree {next : Links α} {cells : List (Cell α)}
    (hchain : List.IsChain links.Joined cells)
    (hnext : ∀ left ∈ cells, ∀ right ∈ cells, links.Joined left right →
      next.next left = links.next left)
    (hprev : ∀ left ∈ cells, ∀ right ∈ cells, links.Joined left right →
      next.prev right = links.prev right) : List.IsChain next.Joined cells := by
  refine hchain.imp_of_mem_imp fun left right hleft hright hjoined => ?_
  exact ⟨(hnext left hleft right hright hjoined).trans hjoined.1,
    (hprev left hleft right hright hjoined).trans hjoined.2⟩

/-- The front of the path, up to the node before the last sentinel. -/
theorem exists_last (elems : List α) :
    ∃ front last, head :: elems.map elem = front ++ [last] := by
  refine ⟨_, _, (List.dropLast_concat_getLast (List.cons_ne_nil head _)).symm⟩

theorem path_around (before after : List α) (a : α) : ∃ front left right back,
      path (before ++ a :: after) = front ++ left :: elem a :: right :: back ∧
        path (before ++ after) = front ++ left :: right :: back := by
  obtain ⟨front, left, hfront⟩ := exists_last before
  obtain ⟨right, back, hback⟩ : ∃ right back, after.map elem ++ [tail] = right :: back :=
    List.exists_cons_of_ne_nil (by simp)
  refine ⟨front, left, right, back, ?_, ?_⟩
  · rw [path, List.map_append, List.map_cons, List.append_assoc, List.cons_append, hback,
      ← List.cons_append, hfront]
    simp
  · rw [path, List.map_append, List.append_assoc, hback, ← List.cons_append, hfront]
    simp

theorem nodup_around {β : Type*} {front back : List β} {left b right : β}
    (hnodup : (front ++ left :: b :: right :: back).Nodup) :
    b ∉ front ++ [left] ∧ b ∉ right :: back ∧ right ∉ front ++ [left] ∧
      left ∉ right :: back := by
  rw [List.append_cons, List.nodup_append] at hnodup
  obtain ⟨-, hback, hne⟩ := hnodup
  refine ⟨?_, (List.nodup_cons.mp hback).1, ?_, ?_⟩
  · exact fun hmem => hne b hmem b (by simp) rfl
  · exact fun hmem => hne right hmem right (by simp) rfl
  · exact fun hmem => hne left (by simp) left (List.mem_cons_of_mem b hmem) rfl

variable [DecidableEq α]

def setNext (links : Links α) (cell : Cell α) (target : Option (Cell α)) : Links α :=
  { links with next := Function.update links.next cell target }

def setPrev (links : Links α) (cell : Cell α) (target : Option (Cell α)) : Links α :=
  { links with prev := Function.update links.prev cell target }

/-- Two sentinels that point at each other. -/
def empty : Links α :=
  (({ next := fun _ => none, prev := fun _ => none } : Links α).setNext .head
    (some .tail)).setPrev .tail (some .head)

/-- Remove a node from whatever list it is in. -/
def unlink (links : Links α) (cell : Cell α) : Links α :=
  let links := match links.prev cell with
    | some before => links.setNext before (links.next cell)
    | none => links
  let links := match links.next cell with
    | some after => links.setPrev after (links.prev cell)
    | none => links
  (links.setNext cell none).setPrev cell none

/-- Link an element in front of the last sentinel. -/
def pushBack (links : Links α) (a : α) : Links α :=
  match links.prev .tail with
  | none => links
  | some last =>
    (((links.setNext last (some (.elem a))).setPrev (.elem a) (some last)).setNext
      (.elem a) (some .tail)).setPrev .tail (some (.elem a))

/-- Unlink the element behind the first sentinel. -/
def popFront (links : Links α) : Option (α × Links α) :=
  match links.next .head with
  | some (.elem a) => some (a, links.unlink (.elem a))
  | _ => none

theorem empty_represents : (empty : Links α).Represents [] := by
  refine ⟨?_, List.nodup_nil, fun a _ => ?_⟩
  · simp [path, Joined, empty, setNext, setPrev]
  · simp [empty, setNext, setPrev]

theorem Represents.pushBack (hrep : links.Represents elems) (hfresh : a ∉ elems) :
    (links.pushBack a).Represents (elems ++ [a]) := by
  obtain ⟨front, last, hfront⟩ := exists_last elems
  have hpath : path elems = front ++ last :: [tail] := by
    rw [path, ← List.cons_append, hfront, List.append_assoc, List.singleton_append]
  have hnodup := path_nodup hrep.nodup
  have hchain := hrep.chain
  rw [hpath] at hnodup hchain
  obtain ⟨hleft, ⟨hlastNext, htailPrev⟩, -⟩ := List.isChain_append_cons_cons.mp hchain
  have hcells : ∀ cell ∈ front ++ [last], cell ≠ .tail ∧ cell ≠ .elem a := by
    rw [← hfront]
    intro cell hcell
    rcases List.mem_cons.mp hcell with rfl | hcell
    · simp
    · obtain ⟨b, hb, rfl⟩ := List.mem_map.mp hcell
      exact ⟨by simp, fun heq => hfresh (elem.inj heq ▸ hb)⟩
  have hlast := hcells last (by simp)
  have hresult : path (elems ++ [a]) = front ++ last :: elem a :: [tail] := by
    rw [path, List.map_append, ← List.cons_append, ← List.cons_append, hfront]
    simp
  refine ⟨?_, ?_, ?_⟩
  · rw [hresult]
    refine List.isChain_append_cons_cons.mpr ⟨?_, ?_, ?_⟩
    · refine isChain_of_agree hleft ?_ ?_
      · intro left hl right hr hjoined
        have hne : left ≠ last := by
          rintro rfl
          rw [Joined, hlastNext] at hjoined
          exact (hcells right hr).1 (Option.some.inj hjoined.1).symm
        simp [Links.pushBack, htailPrev, setNext, setPrev, hne, (hcells left hl).2]
      · intro left _ right hr _
        simp [Links.pushBack, htailPrev, setNext, setPrev, hcells right hr]
    · simp [Joined, Links.pushBack, htailPrev, setNext, setPrev, hlast]
    · simp [Joined, Links.pushBack, htailPrev, setNext, setPrev]
  · exact List.nodup_append.mpr ⟨hrep.nodup, List.nodup_singleton a, by
      rintro b hb c hc rfl
      exact hfresh (List.mem_singleton.mp hc ▸ hb)⟩
  · intro b hb
    simp only [List.mem_append, List.mem_singleton, not_or] at hb
    obtain ⟨hnext, hprev⟩ := hrep.free b hb.1
    have hne : elem b ≠ last := by
      rintro rfl
      rw [hnext] at hlastNext
      cases hlastNext
    simp [Links.pushBack, htailPrev, setNext, setPrev, hne, hb.2, hnext, hprev]

/-- A node that is in no list has nothing to unlink. -/
theorem unlink_of_free (hnext : links.next cell = none) (hprev : links.prev cell = none) :
    links.unlink cell = links := by
  simp only [unlink, hnext, hprev, setNext, setPrev]
  congr 1
  · rw [← hnext, Function.update_eq_self]
  · rw [← hprev, Function.update_eq_self]

theorem unlink_eq (hprev : links.prev cell = some left) (hnext : links.next cell = some right)
    (hne : cell ≠ left) :
    links.unlink cell = {
      next := Function.update (Function.update links.next left (some right)) cell none
      prev := Function.update (Function.update links.prev right (some left)) cell none } := by
  simp [unlink, hprev, hnext, setNext, setPrev, hne]

/-- The neighbours of an unlinked node are joined, and the rest of the path is
as it was. -/
theorem isChain_unlink {front back : List (Cell α)}
    (hchain : List.IsChain links.Joined (front ++ left :: cell :: right :: back))
    (hnodup : (front ++ left :: cell :: right :: back).Nodup) :
    List.IsChain (links.unlink cell).Joined (front ++ left :: right :: back) := by
  obtain ⟨hleft, ⟨hleftNext, hcellPrev⟩, hrest⟩ := List.isChain_append_cons_cons.mp hchain
  obtain ⟨⟨hcellNext, hrightPrev⟩, hright⟩ := List.isChain_cons_cons.mp hrest
  obtain ⟨hcellFront, hcellBack, hrightFront, hleftBack⟩ := nodup_around hnodup
  have hcellLeft : cell ≠ left := fun heq => hcellFront (heq ▸ by simp)
  have hcellRight : cell ≠ right := fun heq => hcellBack (heq ▸ by simp)
  rw [unlink_eq hcellPrev hcellNext hcellLeft]
  refine List.isChain_append_cons_cons.mpr ⟨?_, ?_, ?_⟩
  · apply isChain_of_agree hleft
    · intro l hl r hr hjoined
      have hll : l ≠ left := by
        rintro rfl
        rw [Joined, hleftNext] at hjoined
        exact hcellFront (Option.some.inj hjoined.1 ▸ hr)
      have hlc : l ≠ cell := fun heq => hcellFront (heq ▸ hl)
      simp [hll, hlc]
    · intro l _ r hr _
      have hrr : r ≠ right := fun heq => hrightFront (heq ▸ hr)
      have hrc : r ≠ cell := fun heq => hcellFront (heq ▸ hr)
      simp [hrr, hrc]
  · simp [Joined, hcellLeft.symm, hcellRight.symm]
  · apply isChain_of_agree hright
    · intro l hl r _ _
      have hll : l ≠ left := fun heq => hleftBack (heq ▸ hl)
      have hlc : l ≠ cell := fun heq => hcellBack (heq ▸ hl)
      simp [hll, hlc]
    · intro l hl r hr hjoined
      have hrr : r ≠ right := by
        rintro rfl
        rw [Joined, hrightPrev] at hjoined
        exact hcellBack (Option.some.inj hjoined.2 ▸ hl)
      have hrc : r ≠ cell := fun heq => hcellBack (heq ▸ hr)
      simp [hrr, hrc]

theorem Represents.unlink_of_mem (hrep : links.Represents elems) (hmem : a ∈ elems) :
    (links.unlink (.elem a)).Represents (elems.erase a) := by
  obtain ⟨before, after, rfl⟩ := List.append_of_mem hmem
  have hbefore : a ∉ before := fun hmem =>
    (List.nodup_append.mp hrep.nodup).2.2 a hmem a (by simp) rfl
  obtain ⟨front, left, right, back, hpath, hresult⟩ := path_around before after a
  have hnodup := path_nodup hrep.nodup
  have hchain := hrep.chain
  rw [hpath] at hnodup hchain
  rw [List.erase_append_right _ hbefore, List.erase_cons_head]
  refine ⟨hresult ▸ isChain_unlink hchain hnodup, ?_, ?_⟩
  · have hsub : (before ++ after).Sublist (before ++ a :: after) :=
      List.Sublist.append_left (List.sublist_cons_self a after) before
    exact hsub.nodup hrep.nodup
  · intro b hb
    obtain ⟨-, ⟨hleftNext, haPrev⟩, hrest⟩ := List.isChain_append_cons_cons.mp hchain
    obtain ⟨⟨haNext, hrightPrev⟩, -⟩ := List.isChain_cons_cons.mp hrest
    have haLeft : elem a ≠ left := fun heq => (nodup_around hnodup).1 (heq ▸ by simp)
    rw [unlink_eq haPrev haNext haLeft]
    by_cases hba : b = a
    · subst b
      simp
    · have hfree := hrep.free b (by simp_all)
      have hbl : elem b ≠ left := by
        rintro rfl
        rw [hfree.1] at hleftNext
        cases hleftNext
      have hbr : elem b ≠ right := by
        rintro rfl
        rw [hfree.2] at hrightPrev
        cases hrightPrev
      simp [hba, hbl, hbr, hfree]

theorem Represents.unlink (hrep : links.Represents elems) (a : α) :
    (links.unlink (.elem a)).Represents (elems.erase a) := by
  by_cases hmem : a ∈ elems
  · exact hrep.unlink_of_mem hmem
  · rw [unlink_of_free (hrep.free a hmem).1 (hrep.free a hmem).2, List.erase_of_not_mem hmem]
    exact hrep

theorem Represents.popFront_nil (hrep : links.Represents []) : links.popFront = none := by
  have hnext := (List.isChain_cons_cons.mp hrep.chain).1.1
  simp [popFront, hnext]

theorem Represents.popFront_cons (hrep : links.Represents (a :: elems)) :
    links.popFront = some (a, links.unlink (.elem a)) ∧
      (links.unlink (.elem a)).Represents elems := by
  have hnext : links.next .head = some (.elem a) :=
    (List.isChain_cons_cons.mp (path_cons a elems ▸ hrep.chain)).1.1
  refine ⟨by simp [popFront, hnext], ?_⟩
  simpa using hrep.unlink a

end Links

end Kitex.Container
