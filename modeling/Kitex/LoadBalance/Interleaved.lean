import Kitex.Container.LinkedQueue
import Kitex.LoadBalance.Weights

/-! # Interleaved weighted round robin

The nodes wait in a linked queue. The first one is picked and goes to the end of the queue, until
its weight is used up; then it waits for the next cycle in a second queue. `Next` holds a lock, so
its calls follow one another.
-/

namespace Kitex.LoadBalance

open Kitex.Container

/-- The nodes are named by the order in which they are created. -/
structure IwrrPicker (size : Nat) where
  ins : Fin size → Instance
  remainder : Fin size → Int
  link : Fin size → Option (Fin size)
  current : LinkedQueue (Fin size)
  next : LinkedQueue (Fin size)
  gcd : Int

/-- `offset` is a random number. -/
def newIwrrPicker (instances : List Instance) (offset : Nat) : IwrrPicker instances.length :=
  let queued := (List.finRange instances.length).foldl
    (fun (queued : _ × LinkedQueue _) idx => queued.2.enqueue queued.1 idx) (fun _ => none, .empty)
  { ins := rotated instances offset
    remainder := fun idx => (rotated instances offset idx).weight
    link := queued.1
    current := queued.2
    next := .empty
    gcd := (List.finRange instances.length).foldl
      (fun gcd idx => gcdInt gcd (rotated instances offset idx).weight) 0 }

namespace IwrrPicker

variable {size : Nat}

/-- `Next`, with the node whose instance it returns; a nil node is dereferenced in no other case
than that of an empty queue. -/
def pick (ip : IwrrPicker size) : Option (Fin size × IwrrPicker size) :=
  let ip :=
    if ip.current.head = none then { ip with current := ip.next, next := ip.current } else ip
  (ip.current.dequeue ip.link).map fun (node, link, current) =>
    let remainder := ip.remainder node - ip.gcd
    if 0 < remainder then
      let (link, current) := current.enqueue link node
      (node, { ip with remainder := Function.update ip.remainder node remainder, link, current })
    else
      let (link, next) := ip.next.enqueue link node
      (node, { ip with
        remainder := Function.update ip.remainder node (ip.ins node).weight, link, current, next })

/-- A number of calls of `Next`. -/
def picks : (calls : Nat) → IwrrPicker size → Option (List (Fin size) × IwrrPicker size)
  | 0, ip => some ([], ip)
  | calls + 1, ip => ip.pick.bind fun (node, ip) =>
    (picks calls ip).map fun (nodes, ip) => (node :: nodes, ip)

theorem picks_add (first second : Nat) (ip : IwrrPicker size) :
    picks (first + second) ip = (picks first ip).bind fun (before, ip) =>
      (picks second ip).map fun (nodes, ip) => (before ++ nodes, ip) := by
  induction first generalizing ip with
  | zero => simp [picks]
  | succ first ih =>
    rw [Nat.add_right_comm, picks, picks]
    cases ip.pick with
    | none => rfl
    | some picked =>
      simp only [Option.bind_some, ih]
      cases picks first picked.2 <;> simp [Function.comp_def]

/-! ## The queues -/

/-- The picks that are left in this cycle, if the nodes of the queue have the given credits. -/
def due (credit : Fin size → Nat) (cur : List (Fin size)) : List (Fin size) :=
  cur.flatMap fun node => List.replicate (credit node) node

/-- The nodes are in the two queues. Those of the first one have picks left, those of the second
one have their share back. -/
structure Holds (share credit : Fin size → Nat) (ip : IwrrPicker size)
    (cur nxt : List (Fin size)) : Prop where
  current : ip.current.Represents ip.link cur
  next : ip.next.Represents ip.link nxt
  perm : (cur ++ nxt).Perm (List.finRange size)
  gcd_pos : 0 < ip.gcd
  share_pos : ∀ node, 0 < share node
  weight : ∀ node, (ip.ins node).weight = share node * ip.gcd
  remainder : ∀ node, ip.remainder node = credit node * ip.gcd
  credit_pos : ∀ node ∈ cur, 0 < credit node
  credit_eq : ∀ node ∈ nxt, credit node = share node

variable {share credit : Fin size → Nat} {ip : IwrrPicker size} {cur nxt : List (Fin size)}
  {node : Fin size} {all : List (Fin size)}

theorem Holds.nodup (h : ip.Holds share credit cur nxt) : (cur ++ nxt).Nodup :=
  h.perm.nodup_iff.mpr (List.nodup_finRange size)

theorem due_cons : due credit (node :: cur) =
    List.replicate (credit node) node ++ due credit cur := rfl

theorem due_update (hnode : node ∉ cur) (left : Nat) :
    due (Function.update credit node left) cur = due credit cur := by
  refine List.flatMap_congr fun other hother => ?_
  rw [Function.update_of_ne]
  rintro rfl
  exact hnode hother

theorem update_eq_mul {remainder : Fin size → Int} {gcd : Int} {left : Nat}
    (hremainder : ∀ other, remainder other = credit other * gcd) (other : Fin size) :
    Function.update remainder node (left * gcd) other =
      (Function.update credit node left other : Nat) * gcd := by
  by_cases hother : other = node
  · rw [hother, Function.update_self, Function.update_self]
  · rw [Function.update_of_ne hother, Function.update_of_ne hother, hremainder]

/-- The first node is picked. -/
theorem Holds.pick_cons (h : ip.Holds share credit (node :: cur) nxt) :
    ∃ ip' credit' cur' nxt', ip.pick = some (node, ip') ∧ ip'.Holds share credit' cur' nxt' ∧
      (due credit (node :: cur)).Perm (node :: due credit' cur') := by
  have hnodup := h.nodup
  rw [List.cons_append, List.nodup_cons, List.mem_append, not_or] at hnodup
  obtain ⟨⟨hcur, hnxt⟩, hboth⟩ := hnodup
  have hdisjoint := List.disjoint_of_nodup_append hboth
  have hhead : ip.current.head ≠ none := by
    rw [Ne, h.current.head_eq_none]
    exact List.cons_ne_nil _ _
  obtain ⟨rest, hdequeue, hrest⟩ := h.current.dequeue
    (List.nodup_cons.mpr ⟨hcur, hboth.of_append_left⟩)
  have hnext := h.next.update hnxt none
  have hremainder : ip.remainder node - ip.gcd = ((credit node - 1 : Nat) : Int) * ip.gcd := by
    rw [h.remainder, Int.ofNat_sub (h.credit_pos node List.mem_cons_self), Int.sub_mul,
      Int.ofNat_one, Int.one_mul]
  simp only [pick, if_neg hhead, hdequeue, Option.map_some, hremainder]
  split
  next hleft =>
    have hpos : 0 < credit node - 1 :=
      Int.natCast_pos.mp (Int.pos_of_mul_pos_left hleft h.gcd_pos)
    refine ⟨_, Function.update credit node (credit node - 1), cur ++ [node], nxt, rfl,
      { current := hrest.enqueue (List.nodup_append_comm.mp (by simp [hcur, hboth.of_append_left]))
        next := hnext.enqueue_other hrest (List.disjoint_cons_left.mpr ⟨hnxt, hdisjoint⟩)
        perm := ?_
        gcd_pos := h.gcd_pos
        share_pos := h.share_pos
        weight := h.weight
        remainder := update_eq_mul h.remainder
        credit_pos := ?_
        credit_eq := ?_ }, ?_⟩
    · exact ((List.perm_append_singleton node cur).append_right nxt).trans h.perm
    · intro other hother
      rcases List.mem_append.mp hother with hother | hother
      · rw [Function.update_of_ne (ne_of_mem_of_not_mem hother hcur)]
        exact h.credit_pos other (List.mem_cons_of_mem node hother)
      · rwa [List.mem_singleton.mp hother, Function.update_self]
    · intro other hother
      rw [Function.update_of_ne (ne_of_mem_of_not_mem hother hnxt)]
      exact h.credit_eq other hother
    · have hcredit : credit node = credit node - 1 + 1 := by omega
      have hdue : due (Function.update credit node (credit node - 1)) (cur ++ [node]) =
          due credit cur ++ List.replicate (credit node - 1) node := by
        rw [due, List.flatMap_append, ← due, due_update hcur]
        simp
      rw [hdue, due_cons, hcredit, List.replicate_succ, List.cons_append, Nat.add_sub_cancel]
      exact List.perm_append_comm.cons node
  next hleft =>
    have hlast : credit node = 1 := by
      have hpos := h.credit_pos node List.mem_cons_self
      by_contra hne
      exact hleft (Int.mul_pos (by omega) h.gcd_pos)
    refine ⟨_, Function.update credit node (share node), cur, nxt ++ [node], rfl,
      { current := hrest.enqueue_other hnext
          (List.disjoint_cons_left.mpr ⟨hcur, fun _ hmem hother => hdisjoint hother hmem⟩)
        next := hnext.enqueue (List.nodup_append_comm.mp (by simp [hnxt, hboth.of_append_right]))
        perm := ?_
        gcd_pos := h.gcd_pos
        share_pos := h.share_pos
        weight := h.weight
        remainder := ?_
        credit_pos := fun other hother => ?_
        credit_eq := fun other hother => ?_ }, ?_⟩
    · rw [← List.append_assoc]
      exact (List.perm_append_singleton node _).trans h.perm
    · rw [h.weight]
      exact update_eq_mul h.remainder
    · rw [Function.update_of_ne (ne_of_mem_of_not_mem hother hcur)]
      exact h.credit_pos other (List.mem_cons_of_mem node hother)
    · rcases List.mem_append.mp hother with hother | hother
      · rw [Function.update_of_ne (ne_of_mem_of_not_mem hother hnxt)]
        exact h.credit_eq other hother
      · rw [List.mem_singleton.mp hother, Function.update_self]
    · rw [due_update hcur, due_cons, hlast]
      exact List.Perm.refl _

/-- When the first queue is empty, the two are swapped. -/
theorem Holds.pick_nil (h : ip.Holds share credit [] (node :: nxt)) :
    ip.pick = { ip with current := ip.next, next := ip.current }.pick ∧
      { ip with current := ip.next, next := ip.current }.Holds share credit (node :: nxt) [] := by
  have hhead : ip.current.head = none := h.current.head_eq_none.mpr rfl
  have hnext : ip.next.head ≠ none := by
    rw [Ne, h.next.head_eq_none]
    exact List.cons_ne_nil _ _
  refine ⟨by simp only [pick, if_pos hhead, if_neg hnext], ?_⟩
  exact ⟨h.next, h.current, by simpa using h.perm, h.gcd_pos, h.share_pos, h.weight, h.remainder,
    fun other hother => h.credit_eq other hother ▸ h.share_pos other, by simp⟩

/-! ## Cycles -/

section

variable (h : ip.Holds share credit cur nxt)
include h

/-- A node is picked from the queue that is not empty, and one pick less is left. -/
theorem Holds.pick_some (hsize : size ≠ 0) :
    ∃ node ip' credit' cur' nxt', ip.pick = some (node, ip') ∧
      ip'.Holds share credit' cur' nxt' ∧
      (due credit (if cur = [] then nxt else cur)).Perm (node :: due credit' cur') := by
  cases cur with
  | cons node cur =>
    obtain ⟨ip', credit', cur', nxt', hpick⟩ := h.pick_cons
    exact ⟨node, ip', credit', cur', nxt', by simpa using hpick⟩
  | nil =>
    cases nxt with
    | nil =>
      have hlength := h.perm.length_eq
      rw [List.append_nil, List.length_nil, List.length_finRange] at hlength
      exact absurd hlength.symm hsize
    | cons node nxt =>
      obtain ⟨hswap, hholds⟩ := h.pick_nil
      obtain ⟨ip', credit', cur', nxt', hpick⟩ := hholds.pick_cons
      exact ⟨node, ip', credit', cur', nxt', by simpa [hswap] using hpick⟩

/-- All calls find a node. -/
theorem Holds.picks_some (hsize : size ≠ 0) (calls : Nat) :
    ∃ nodes ip' credit' cur' nxt', picks calls ip = some (nodes, ip') ∧
      ip'.Holds share credit' cur' nxt' := by
  induction calls generalizing ip credit cur nxt with
  | zero => exact ⟨[], ip, credit, cur, nxt, rfl, h⟩
  | succ calls ih =>
    obtain ⟨node, ip', credit', cur', nxt', hpick, hnext, -⟩ := h.pick_some hsize
    obtain ⟨nodes, last, credit'', cur'', nxt'', hpicks, hlast⟩ := ih hnext
    exact ⟨node :: nodes, last, credit'', cur'', nxt'', by simp [picks, hpick, hpicks],
      hlast⟩

/-- The picks that are left in a cycle are made, and then the first queue is empty. -/
theorem Holds.picks_due :
    ∃ nodes ip' credit' nxt', picks (due credit cur).length ip = some (nodes, ip') ∧
      nodes.Perm (due credit cur) ∧ ip'.Holds share credit' [] nxt' := by
  generalize hcalls : (due credit cur).length = calls
  induction calls generalizing ip credit cur nxt with
  | zero =>
    have hdue := List.eq_nil_of_length_eq_zero hcalls
    have hcur : cur = [] := List.eq_nil_iff_forall_not_mem.mpr fun node hnode =>
      (h.credit_pos node hnode).ne' (by
        simpa using List.flatMap_eq_nil_iff.mp hdue node hnode)
    subst hcur
    exact ⟨[], ip, credit, nxt, rfl, .refl _, h⟩
  | succ calls ih =>
    cases cur with
    | nil => cases hcalls
    | cons node cur =>
      obtain ⟨ip', credit', cur', nxt', hpick, hnext, hperm⟩ := h.pick_cons
      have hlength : (due credit' cur').length = calls := by
        rw [hperm.length_eq, List.length_cons] at hcalls
        omega
      obtain ⟨nodes, last, credit'', nxt'', hpicks, hnodes, hlast⟩ := ih hnext hlength
      exact ⟨node :: nodes, last, credit'', nxt'', by simp [picks, hpick, hpicks],
        (hnodes.cons node).trans hperm.symm, hlast⟩

end

/-- A cycle begins: all nodes are in one queue, with their shares. -/
def CycleStart (share : Fin size → Nat) (ip : IwrrPicker size) : Prop :=
  ∃ cur nxt, ip.Holds share share cur nxt ∧ (cur = [] ∨ nxt = [])

theorem count_due (hperm : all.Perm (List.finRange size)) (node : Fin size) :
    (due share all).count node = share node := by
  have hsum := List.sum_map_eq_nsmul_single (l := all) node
    (fun other => (List.replicate (share other) other).count node) fun other hne _ => by
      simp [List.count_replicate, hne]
  rw [due, List.count_flatMap]
  refine hsum.trans ?_
  rw [hperm.count_eq, List.count_eq_one_of_mem (List.nodup_finRange size) (List.mem_finRange node),
    one_nsmul, List.count_replicate_self]

theorem length_due (hperm : all.Perm (List.finRange size)) : (due share all).length
    = ((List.finRange size).map share).sum := by
  rw [due, List.length_flatMap, (hperm.map _).sum_eq]
  simp

/-- In a cycle each node is picked as often as its share says. -/
theorem CycleStart.picks_cycle (h : ip.CycleStart share) (hsize : size ≠ 0) :
    ∃ nodes ip', picks ((List.finRange size).map share).sum ip = some (nodes, ip') ∧
      ip'.CycleStart share ∧ ∀ node, nodes.count node = share node := by
  obtain ⟨cur, nxt, hholds, hempty⟩ := h
  have hall : (if cur = [] then nxt else cur).Perm (List.finRange size) := by
    have hperm := hholds.perm
    split
    next hcur => rwa [hcur] at hperm
    next hcur => rwa [hempty.resolve_left hcur, List.append_nil] at hperm
  obtain ⟨node, middle, credit, cur', nxt', hpick, hnext, hdue⟩ := hholds.pick_some hsize
  obtain ⟨nodes, last, credit', nxt'', hpicks, hnodes, hlast⟩ := hnext.picks_due
  have hlength := hdue.length_eq
  rw [length_due hall, List.length_cons] at hlength
  refine ⟨node :: nodes, last, by simp [hlength, picks, hpick, hpicks],
    ⟨[], nxt'', ?_, .inl rfl⟩, fun other => ?_⟩
  · have hcredit : credit' = share := funext fun other =>
      hlast.credit_eq other (hlast.perm.mem_iff.mpr (List.mem_finRange other))
    exact hcredit ▸ hlast
  · rw [(hnodes.cons node).count_eq, ← hdue.count_eq, count_due hall]

theorem CycleStart.picks_cycles (h : ip.CycleStart share) (hsize : size ≠ 0) (cycles : Nat) :
    ∃ nodes ip', picks (cycles * ((List.finRange size).map share).sum) ip = some (nodes, ip') ∧
      ip'.CycleStart share := by
  induction cycles generalizing ip with
  | zero => exact ⟨[], ip, by rw [Nat.zero_mul]; rfl, h⟩
  | succ cycles ih =>
    obtain ⟨first, middle, hfirst, hmiddle, -⟩ := h.picks_cycle hsize
    obtain ⟨nodes, last, hnodes, hlast⟩ := ih hmiddle
    refine ⟨first ++ nodes, last, ?_, hlast⟩
    rw [Nat.succ_mul, Nat.add_comm]
    simp only [picks_add, hfirst, Option.bind_some, hnodes, Option.map_some]

end IwrrPicker

/-! ## A new picker -/

variable {instances : List Instance}

theorem cycleStart_newIwrrPicker (offset : Nat) (hne : instances ≠ [])
    (hpos : ∀ ins ∈ instances, 0 < ins.weight) :
    (newIwrrPicker instances offset).CycleStart fun node =>
      share instances (rotated instances offset node) := by
  have hqueued : ∀ (rest done : List (Fin instances.length)) (queued : _ × LinkedQueue _),
      queued.2.Represents queued.1 done → (done ++ rest).Nodup →
      (rest.foldl (fun queued idx => queued.2.enqueue queued.1 idx) queued).2.Represents
        (rest.foldl (fun queued idx => queued.2.enqueue queued.1 idx) queued).1 (done ++ rest) := by
    intro rest
    induction rest with
    | nil => intro done queued hrep _; simpa using hrep
    | cons idx rest ih =>
      intro done queued hrep hnodup
      rw [List.append_cons] at hnodup ⊢
      exact ih _ _ (hrep.enqueue hnodup.of_append_left) hnodup
  have hgcd : (newIwrrPicker instances offset).gcd = weightGcd instances := gcd_rotated offset hpos
  have hweight := weight_rotated offset hpos
  have hshare : ∀ node, 0 < share instances (rotated instances offset node) := by
    intro node
    have hins := hpos _ (rotated_mem offset node)
    by_contra hzero
    rw [hweight, Nat.eq_zero_of_not_pos hzero] at hins
    simp at hins
  exact ⟨List.finRange _, [],
    { current := hqueued _ [] _ (LinkedQueue.empty_represents _) (List.nodup_finRange _)
      next := LinkedQueue.empty_represents _
      perm := by rw [List.append_nil]
      gcd_pos := by rw [hgcd]; exact Int.natCast_pos.mpr (weightGcd_pos hne hpos)
      share_pos := hshare
      weight := fun node => by rw [hgcd]; exact hweight node
      remainder := fun node => by rw [hgcd]; exact hweight node
      credit_pos := fun node _ => hshare node
      credit_eq := fun _ _ => rfl }, .inr rfl⟩

/-- All calls find a node, the two queues always share out the nodes, and in each cycle a node is
picked as often as its weight says. -/
theorem interleaved_fair (hne : instances ≠ []) (hpos : ∀ ins ∈ instances, 0 < ins.weight)
    (offset : Nat) :
    (∀ calls, ∃ nodes ip cur nxt, (newIwrrPicker instances offset).picks calls = some (nodes, ip) ∧
      ip.current.Represents ip.link cur ∧ ip.next.Represents ip.link nxt ∧
      (cur ++ nxt).Perm (List.finRange instances.length)) ∧ ∀ cycles, ∃ before start nodes ip,
      (newIwrrPicker instances offset).picks (cycles * cycleLength instances) =
        some (before, start) ∧
      start.picks (cycleLength instances) = some (nodes, ip) ∧
      ∀ node, nodes.count node = share instances (rotated instances offset node) := by
  have hsize : instances.length ≠ 0 := fun hzero => hne (List.eq_nil_of_length_eq_zero hzero)
  have hstart := cycleStart_newIwrrPicker offset hne hpos
  have hlength := sum_share_rotated offset (weightGcd_pos hne hpos)
  refine ⟨fun calls => ?_, fun cycles => ?_⟩
  · obtain ⟨_, _, hholds, -⟩ := hstart
    obtain ⟨nodes, ip, _, cur, nxt, hpicks, hlast⟩ := hholds.picks_some hsize calls
    exact ⟨nodes, ip, cur, nxt, hpicks, hlast.current, hlast.next, hlast.perm⟩
  · obtain ⟨before, start, hbefore, hcycle⟩ := hstart.picks_cycles hsize cycles
    obtain ⟨nodes, ip, hnodes, -, hcount⟩ := hcycle.picks_cycle hsize
    rw [hlength] at hbefore hnodes
    exact ⟨before, start, nodes, ip, hbefore, hnodes, hcount⟩

theorem interleaved_fair_two :
    ∃ nodes ip, (newIwrrPicker [⟨0, [97], 4⟩, ⟨1, [98], 2⟩] 1).picks 3 = some (nodes, ip) ∧
      nodes.count 0 = 1 ∧ nodes.count 1 = 2 := by
  obtain ⟨-, hcycles⟩ := @interleaved_fair [⟨0, [97], 4⟩, ⟨1, [98], 2⟩]
    (by simp) (by decide) 1
  obtain ⟨before, start, nodes, ip, hbefore, hnodes, hcount⟩ := hcycles 0
  cases hbefore
  exact ⟨nodes, ip, hnodes, hcount 0, hcount 1⟩

end Kitex.LoadBalance
