import Mathlib.Data.List.Nodup
import Mathlib.Logic.Function.Basic

/-! # Queues of linked nodes

A queue points to its first and to its last node, and each node points to the next one. The links
of all nodes are one function, so that queues can pass their nodes on to each other.
-/

namespace Kitex.Container

universe u

variable {α : Type u}

/-- From a pointer the links lead through the nodes to a nil pointer. -/
def Leads (link : α → Option α) : Option α → List α → Prop
  | start, [] => start = none
  | start, node :: nodes => start = some node ∧ Leads link (link node) nodes

structure LinkedQueue (α : Type u) where
  head : Option α
  tail : Option α
  deriving DecidableEq, Repr

namespace LinkedQueue

variable {link : α → Option α} {q : LinkedQueue α} {nodes : List α} {node : α} {start : Option α}

def empty : LinkedQueue α := ⟨none, none⟩

/-- The queue has the given nodes, in this order. -/
structure Represents (link : α → Option α) (q : LinkedQueue α) (nodes : List α) : Prop where
  leads : Leads link q.head nodes
  tail : q.tail = nodes.getLast?

theorem empty_represents (link : α → Option α) : empty.Represents link [] := ⟨rfl, rfl⟩

theorem Represents.head_eq_none (hrep : q.Represents link nodes) : q.head = none ↔ nodes = [] := by
  cases nodes with
  | nil => exact iff_of_true hrep.leads rfl
  | cons node nodes => exact iff_of_false (by simp [hrep.leads.1]) (List.cons_ne_nil _ _)

variable [DecidableEq α]

def enqueue (link : α → Option α) (q : LinkedQueue α) (node : α) : (α → Option α) × LinkedQueue α :=
  let link := Function.update link node none
  match q.tail with
  | none => (link, ⟨some node, some node⟩)
  | some last => (Function.update link last (some node), ⟨q.head, some node⟩)

/-- There is no first node to take from an empty queue. -/
def dequeue (link : α → Option α) (q : LinkedQueue α) :
    Option (α × (α → Option α) × LinkedQueue α) :=
  q.head.map fun head =>
    (head, Function.update link head none, ⟨link head, (link head).bind fun _ => q.tail⟩)

/-- Links of other nodes may change. -/
theorem leads_update (hleads : Leads link start nodes) (hnode : node ∉ nodes) (target : Option α) :
    Leads (Function.update link node target) start nodes := by
  induction nodes generalizing start with
  | nil => exact hleads
  | cons first nodes ih =>
    rw [List.mem_cons, not_or] at hnode
    rw [Leads, Function.update_of_ne (Ne.symm hnode.1)]
    exact ⟨hleads.1, ih hleads.2 hnode.2⟩

theorem leads_concat {last : α} (hleads : Leads link start (nodes ++ [last]))
    (hnodup : (nodes ++ [last] ++ [node]).Nodup) (hnode : link node = none) :
    Leads (Function.update link last (some node)) start (nodes ++ [last] ++ [node]) := by
  induction nodes generalizing start with
  | nil =>
    have hne : node ≠ last := by
      rintro rfl
      simp at hnodup
    refine ⟨hleads.1, ?_⟩
    rw [Function.update_self]
    exact ⟨rfl, by rw [Leads, Function.update_of_ne hne, hnode]⟩
  | cons first nodes ih =>
    have hne : first ≠ last := by
      rintro rfl
      simp at hnodup
    rw [List.cons_append, List.cons_append, Leads, Function.update_of_ne hne]
    exact ⟨hleads.1, ih hleads.2 (List.nodup_cons.mp hnodup).2⟩

/-- Whatever is done to the links of other nodes, the queue keeps its own. -/
theorem Represents.update (hrep : q.Represents link nodes) (hnode : node ∉ nodes)
    (target : Option α) : q.Represents (Function.update link node target) nodes :=
  ⟨leads_update hrep.leads hnode target, hrep.tail⟩

theorem Represents.enqueue (hrep : q.Represents link nodes) (hnodup : (nodes ++ [node]).Nodup) :
    (q.enqueue link node).2.Represents (q.enqueue link node).1 (nodes ++ [node]) := by
  have hnode : node ∉ nodes := fun hmem => List.disjoint_of_nodup_append hnodup hmem (by simp)
  have hcleared := hrep.update hnode none
  rcases List.eq_nil_or_concat' nodes with rfl | ⟨before, last, rfl⟩
  · have htail : q.tail = none := hrep.tail
    simp only [LinkedQueue.enqueue, htail]
    exact ⟨⟨rfl, by rw [Leads, Function.update_self]⟩, rfl⟩
  · have htail : q.tail = some last := by simpa using hrep.tail
    simp only [LinkedQueue.enqueue, htail]
    refine ⟨leads_concat hcleared.leads hnodup (Function.update_self node none link), by simp⟩

theorem Represents.enqueue_other {other : LinkedQueue α} {others : List α}
    (hother : other.Represents link others) (hrep : q.Represents link nodes)
    (hdisjoint : (node :: nodes).Disjoint others) :
    other.Represents (q.enqueue link node).1 others := by
  have hcleared := hother.update (hdisjoint List.mem_cons_self) none
  cases htail : q.tail with
  | none =>
    simp only [LinkedQueue.enqueue, htail]
    exact hcleared
  | some last =>
    have hlast : last ∈ nodes := List.mem_of_getLast? (hrep.tail.symm.trans htail)
    simp only [LinkedQueue.enqueue, htail]
    exact hcleared.update (hdisjoint (List.mem_cons_of_mem node hlast)) _

theorem Represents.dequeue (hrep : q.Represents link (node :: nodes))
    (hnodup : (node :: nodes).Nodup) :
    ∃ rest, q.dequeue link = some (node, Function.update link node none, rest) ∧
      rest.Represents (Function.update link node none) nodes := by
  obtain ⟨hhead, hleads⟩ := hrep.leads
  refine ⟨⟨link node, (link node).bind fun _ => q.tail⟩, by rw [LinkedQueue.dequeue, hhead]; rfl,
    leads_update hleads (List.nodup_cons.mp hnodup).1 none, ?_⟩
  cases nodes with
  | nil => rw [hleads]; rfl
  | cons second nodes =>
    rw [hleads.1, Option.bind_some, hrep.tail, List.getLast?_cons_cons]

end LinkedQueue

end Kitex.Container
