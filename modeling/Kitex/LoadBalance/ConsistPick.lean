import Mathlib.Data.List.Sort
import Kitex.Container.Lookup
import Kitex.LoadBalance.ConsistRing

/-! # Picking from the ring

A picker that was built from a list returns one of its instances, if some instance
of the list has a virtual node. Which one depends only on the nodes of the ring, so
further instances take requests over and move none between the others, as long as
they do not change the length of the keys.
-/

namespace Kitex.LoadBalance

open Kitex.Container

variable {Request : Type} {env : Hashing} {opt : ConsistentHashOption Request}
  {rNodes : List Instance} {l : Nat} {info : ConsistInfo} {e : Result} {ins : Instance}
  {key : Bytes}

theorem mem_ringNodes {node : VirtualNode} :
    node ∈ ringNodes env opt l rNodes ↔ ∃ ins ∈ rNodes, ∃ j < opt.nodeCount ins,
      node = ⟨env.hash (nodeKey l ins.address j), some ins⟩ := by
  simp only [ringNodes, instanceNodes, List.mem_flatMap, List.mem_map, List.mem_range, eq_comm]

/-! ## Which pickers do not panic -/

section Places

variable {α : Type} {xs out : List α} {pairs : List (Int × α)}

theorem setAll_eq_ok (hpairs : ∀ place ∈ pairs.map Prod.fst, 0 ≤ place ∧ place < xs.length) :
    ∃ out, setAll xs pairs = .ok out := by
  induction pairs generalizing xs with
  | nil => exact ⟨xs, rfl⟩
  | cons pair pairs ih =>
    obtain ⟨hpair, hpairs⟩ := List.forall_mem_cons.mp hpairs
    obtain ⟨out, hout⟩ := @ih (xs.set pair.1.toNat pair.2) (by simpa using hpairs)
    refine ⟨out, ?_⟩
    rw [setAll, List.foldlM_cons, setAt, if_pos hpair]
    exact hout

/-- What is written last at a place stays there. -/
theorem setAll_spec (hset : setAll xs pairs = .ok out) : out.length = xs.length ∧
    (∀ pair ∈ pairs, 0 ≤ pair.1 ∧ pair.1 < xs.length) ∧
    ∀ k : Nat, (∃ pair ∈ pairs, pair.1 = k ∧ out[k]? = some pair.2) ∨
      (∀ pair ∈ pairs, pair.1 ≠ k) ∧ out[k]? = xs[k]? := by
  induction pairs generalizing xs with
  | nil =>
    cases hset
    simp
  | cons pair pairs ih =>
    rw [setAll, List.foldlM_cons, setAt] at hset
    split at hset
    next hpair =>
      obtain ⟨hlength, hpairs, hplaces⟩ := ih hset
      simp only [List.length_set] at hlength hpairs
      refine ⟨hlength, List.forall_mem_cons.mpr ⟨hpair, hpairs⟩, fun k => ?_⟩
      rcases hplaces k with ⟨later, hlater, hk⟩ | ⟨hnone, hk⟩
      · exact .inl ⟨later, List.mem_cons_of_mem _ hlater, hk⟩
      · by_cases hplace : pair.1 = k
        · refine .inl ⟨pair, List.mem_cons_self, hplace, ?_⟩
          rw [hk, hplace, Int.toNat_natCast, List.getElem?_set_self (by omega)]
        · refine .inr ⟨List.forall_mem_cons.mpr ⟨hplace, hnone⟩, ?_⟩
          rw [hk, List.getElem?_set_ne (by omega)]
    next => cases hset

/-- On a list of equal elements one of them is left exactly if a place is not written to. -/
theorem setAll_replicate {total : Nat} {x : α}
    (hset : setAll (List.replicate total x) pairs = .ok out) : out.length = total ∧
      (∀ place ∈ pairs.map Prod.fst, 0 ≤ place ∧ place < total) ∧
      (∀ a ∈ out, (∃ pair ∈ pairs, pair.2 = a) ∨
        a = x ∧ ∃ k < total, (k : Int) ∉ pairs.map Prod.fst) ∧
      ∀ k < total, (k : Int) ∉ pairs.map Prod.fst → x ∈ out := by
  obtain ⟨hlength, hinside, hplaces⟩ := setAll_spec hset
  rw [List.length_replicate] at hlength hinside
  refine ⟨hlength, List.forall_mem_map.mpr hinside, fun a ha => ?_, fun k hk hfree => ?_⟩
  · obtain ⟨k, hk⟩ := List.mem_iff_getElem?.mp ha
    have hlt := (List.getElem?_eq_some_iff.mp hk).1
    rcases hplaces k with ⟨pair, hpair, -, hout⟩ | ⟨hnone, hout⟩
    · exact .inl ⟨pair, hpair, Option.some.inj (hout.symm.trans hk)⟩
    · rw [hk, List.getElem?_replicate_of_lt (hlength ▸ hlt)] at hout
      refine .inr ⟨Option.some.inj hout, k, hlength ▸ hlt, fun hwritten => ?_⟩
      obtain ⟨pair, hpair, hplace⟩ := List.mem_map.mp hwritten
      exact hnone pair hpair hplace
  · rcases hplaces k with ⟨pair, hpair, hplace, -⟩ | ⟨-, hout⟩
    · exact absurd (List.mem_map.mpr ⟨pair, hpair, hplace⟩) hfree
    · rw [List.getElem?_replicate_of_lt hk] at hout
      exact List.mem_of_getElem? hout

end Places

namespace ConsistentHashOption

/-- The places that the virtual nodes are written to. -/
def places (opt : ConsistentHashOption Request) : Int → List Instance → List Int
  | _, [] => []
  | cur, ins :: rNodes =>
    (List.range (opt.getVirtualNodeLen ins).toNat).map (fun j : Nat => wrapInt (cur + j)) ++
      opt.places (wrapInt (cur + opt.getVirtualNodeLen ins)) rNodes

/-- The ring can be allocated, and every virtual node has its place on it. -/
structure Buildable (opt : ConsistentHashOption Request) (rNodes : List Instance) : Prop where
  total : 0 ≤ opt.totalLen rNodes ∧ opt.totalLen rNodes ≤ maxVirtualNodes
  inside : opt.totalLen rNodes ≠ 0 →
    ∀ place ∈ opt.places 0 rNodes, 0 ≤ place ∧ place < opt.totalLen rNodes

/-- The ring is not empty, and every place on it is taken. -/
structure Filled (opt : ConsistentHashOption Request) (rNodes : List Instance) : Prop where
  total : opt.totalLen rNodes ≠ 0
  taken : ∀ place, 0 ≤ place → place < opt.totalLen rNodes → place ∈ opt.places 0 rNodes

end ConsistentHashOption

theorem map_fst_placedRing (env : Hashing) (l : Nat) (cur : Int) :
    (placedRing env opt l cur rNodes).map Prod.fst = opt.places cur rNodes := by
  induction rNodes generalizing cur with
  | nil => rfl
  | cons ins rNodes ih =>
    simp [placedRing, ConsistentHashOption.places, placedNodes, ih]

theorem exists_of_mem_placedRing {cur : Int} {pair : Int × VirtualNode}
    (hpair : pair ∈ placedRing env opt l cur rNodes) :
    ∃ ins ∈ rNodes, ∃ nodeKey, pair.2 = ⟨env.hash nodeKey, some ins⟩ := by
  induction rNodes generalizing cur with
  | nil => nomatch hpair
  | cons ins rNodes ih =>
    rcases List.mem_append.mp hpair with hself | hrest
    · obtain ⟨j, -, rfl⟩ := List.mem_map.mp hself
      exact ⟨ins, List.mem_cons_self, _, rfl⟩
    · obtain ⟨other, hother, hpair⟩ := ih hrest
      exact ⟨other, List.mem_cons_of_mem _ hother, hpair⟩

/-- What is on a ring that could be built: written nodes, and zero nodes at places that are not
taken. -/
theorem buildVirtualNodes_spec {nodes : List VirtualNode}
    (hbuild : buildVirtualNodes env opt rNodes = .ok nodes) : opt.Buildable rNodes ∧
      nodes.length = (opt.totalLen rNodes).toNat ∧
      (nodes.Pairwise fun a b => a.hash.toNat ≤ b.hash.toNat) ∧
      (∀ node ∈ nodes, (∃ ins ∈ rNodes, ∃ nodeKey, node = ⟨env.hash nodeKey, some ins⟩) ∨
        node = ⟨0, none⟩ ∧ ¬opt.Filled rNodes) ∧
      (opt.totalLen rNodes ≠ 0 → ¬opt.Filled rNodes → ⟨0, none⟩ ∈ nodes) := by
  rw [buildVirtualNodes_eq_setAll, makeNodes] at hbuild
  split at hbuild
  next htotal =>
    simp only [bind, Except.bind] at hbuild
    split at hbuild
    next hzero =>
      cases hbuild
      simp only [hzero, Int.toNat_zero]
      exact ⟨⟨htotal, fun h => absurd hzero h⟩, rfl, .nil, by simp, fun h => absurd rfl h⟩
    next hne =>
      cases hset : setAll (List.replicate (opt.totalLen rNodes).toNat ⟨0, none⟩)
          (placedRing env opt (opt.keyLen rNodes) 0 rNodes) with
      | error panic => simp [hset, Except.map] at hbuild
      | ok out =>
        rw [hset] at hbuild
        cases hbuild
        obtain ⟨hlength, hinside, hnodes, hfree⟩ := setAll_replicate hset
        simp only [map_fst_placedRing, Int.toNat_of_nonneg htotal.1] at hinside hnodes hfree
        have hmem : ∀ node, node ∈ env.sort out ↔ node ∈ out := fun _ => (env.perm out).mem_iff
        refine ⟨⟨htotal, fun _ => hinside⟩, ?_,
          (env.sorted out).imp UInt64.le_iff_toNat_le.mp, fun node hnode => ?_,
          fun _ hfilled => ?_⟩
        · rw [(env.perm out).length_eq, hlength]
        · rcases hnodes node ((hmem node).mp hnode) with ⟨pair, hpair, rfl⟩ | ⟨rfl, k, hk, hplace⟩
          · exact .inl (exists_of_mem_placedRing hpair)
          · exact .inr ⟨rfl, fun hfilled => hplace (hfilled.taken k (by omega) (by omega))⟩
        · have hopen : ∃ place, 0 ≤ place ∧ place < opt.totalLen rNodes ∧
              place ∉ opt.places 0 rNodes := by
            by_contra hall
            exact hfilled ⟨hne, by simpa using hall⟩
          obtain ⟨place, hlow, hhigh, hplace⟩ := hopen
          obtain ⟨k, rfl⟩ := Int.eq_ofNat_of_zero_le hlow
          exact (hmem _).mpr (hfree k (by omega) hplace)
  next => cases hbuild

theorem exists_buildVirtualNodes (env : Hashing) (hbuildable : opt.Buildable rNodes) :
    ∃ nodes, buildVirtualNodes env opt rNodes = .ok nodes := by
  rw [buildVirtualNodes_eq_setAll, makeNodes, if_pos hbuildable.total]
  simp only [bind, Except.bind]
  split
  next => exact ⟨_, rfl⟩
  next hne =>
    obtain ⟨out, hout⟩ := @setAll_eq_ok _ (List.replicate (opt.totalLen rNodes).toNat ⟨0, none⟩)
      (placedRing env opt (opt.keyLen rNodes) 0 rNodes) (by
        simpa [map_fst_placedRing, Int.toNat_of_nonneg hbuildable.total.1] using
          hbuildable.inside hne)
    rw [hout]
    exact ⟨_, rfl⟩

/-- A ring of nodes of the listed instances has one of them for every key. -/
theorem buildConsistResult_eq_ok {nodes : List VirtualNode} (hnodes : nodes ≠ [])
    (hreal : ∀ node ∈ nodes, ∃ ins ∈ rNodes, node.realNode = some ins) (key : UInt64) :
    ∃ ins ∈ rNodes, buildConsistResult ⟨rNodes, nodes⟩ key = .ok ins := by
  have hlt := Ring.successor_lt (fun node : VirtualNode => node.hash.toNat) hnodes key.toNat
  obtain ⟨ins, hins, hnode⟩ := hreal _ (List.getElem_mem hlt)
  refine ⟨ins, hins, ?_⟩
  rw [LoadBalance.buildConsistResult, List.getElem?_eq_getElem hlt]
  simp only [hnode, Option.elim_some]

/-- What is returned is in the list; it is nil for an empty list or key only. -/
def Chosen (rNodes : List Instance) (key : Bytes) (result : Option Instance) : Prop :=
  (∀ ins, result = some ins → ins ∈ rNodes) ∧ (result = none → rNodes = [] ∨ key = [])

/-- A full ring has an instance of the list for every key. -/
theorem exists_chosen (env : Hashing) (hbuildable : opt.Buildable rNodes)
    (hchoice : rNodes = [] ∨ key = [] ∨ opt.Filled rNodes) :
    ∃ result, primary env opt rNodes key = .ok result ∧ Chosen rNodes key result := by
  obtain ⟨nodes, hbuild⟩ := exists_buildVirtualNodes env hbuildable
  obtain ⟨-, hlength, -, hnodes, -⟩ := buildVirtualNodes_spec hbuild
  simp only [primary, hbuild, bind, Except.bind, pickerNext]
  split
  next hlist => exact ⟨none, rfl, nofun, fun _ => .inl hlist⟩
  next hlist =>
    split
    next hkey => exact ⟨none, rfl, nofun, fun _ => .inr hkey⟩
    next hkey =>
      have hfilled := (hchoice.resolve_left hlist).resolve_left hkey
      have htotal := hbuildable.total.1
      have hne := hfilled.total
      obtain ⟨ins, hins, hresult⟩ := @buildConsistResult_eq_ok rNodes nodes
        (fun hnil => by simp [hnil] at hlength; omega) (fun node hnode => by
          obtain ⟨ins, hins, _, rfl⟩ :=
            (hnodes node hnode).resolve_right fun hempty => hempty.2 hfilled
          exact ⟨ins, hins, rfl⟩) (env.hash key)
      refine ⟨some ins, by rw [hresult]; rfl, ?_, nofun⟩
      rintro _ ⟨⟩
      exact hins

/-- A hash with a sort by insertion. -/
def insertionHashing (hash : Bytes → UInt64) : Hashing where
  hash := hash
  sort := List.insertionSort fun a b => a.hash.toNat ≤ b.hash.toNat
  perm := List.perm_insertionSort _
  sorted nodes := by
    have htotal : Std.Total fun a b : VirtualNode => a.hash.toNat ≤ b.hash.toNat :=
      ⟨fun a b => Nat.le_total _ _⟩
    have htrans : IsTrans VirtualNode fun a b => a.hash.toNat ≤ b.hash.toNat :=
      ⟨fun _ _ _ => Nat.le_trans⟩
    exact (List.pairwise_insertionSort _ nodes).imp UInt64.le_iff_toNat_le.mpr

/-- If all keys have the hash one, the search ends at a place that is not taken. -/
theorem filled_of_primary {result : Option Instance}
    (hprimary : primary (insertionHashing fun _ => 1) opt rNodes key = .ok result) :
    opt.Buildable rNodes ∧ (rNodes = [] ∨ key = [] ∨ opt.Filled rNodes) := by
  cases hbuild : buildVirtualNodes (insertionHashing fun _ => 1) opt rNodes with
  | error panic => simp [primary, hbuild, bind, Except.bind] at hprimary
  | ok nodes =>
    obtain ⟨hbuildable, hlength, hsorted, hnodes, hzero⟩ := buildVirtualNodes_spec hbuild
    refine ⟨hbuildable, ?_⟩
    by_contra hnone
    simp only [not_or] at hnone
    obtain ⟨hlist, hkey, hfilled⟩ := hnone
    simp only [primary, hbuild, bind, Except.bind, pickerNext, if_neg hlist, if_neg hkey,
      buildConsistResult] at hprimary
    split at hprimary
    next => nomatch hprimary
    next node hnode =>
      have hmem := List.mem_of_getElem? hnode
      have hempty := hzero (by have := List.length_pos_of_mem hmem; omega) hfilled
      have hle : ∀ other ∈ nodes, other.hash.toNat ≤ 1 := by
        intro other hother
        rcases hnodes other hother with ⟨_, _, _, rfl⟩ | ⟨rfl, -⟩ <;> simp [insertionHashing]
      have hleast : node.hash.toNat ≤ 0 := by
        have hcases := @Ring.least_after_of_ahead_le _ _ 1 node.hash.toNat
          (nodes.map (·.hash.toNat)) (by
            simpa [insertionHashing] using fun (other : VirtualNode) (hother : other ∈ nodes) =>
              Ring.successor_least hsorted hnode hother)
        rcases hcases with hafter | hnone
        · exact absurd hafter.1 (Nat.not_lt.mpr (hle _ hmem))
        · exact (hnone _ (List.mem_map_of_mem hempty)).2
      rcases hnodes node hmem with ⟨_, _, _, rfl⟩ | ⟨rfl, -⟩
      · simp [insertionHashing] at hleast
      · nomatch hprimary

namespace ConsistBalancer

/-- A new balancer builds the ring for its first picker. -/
theorem run_pick {getKey : Request → Bytes} (hgetKey : opt.getKey = some getKey)
    (hfactor : opt.virtualFactor ≠ 0) (e : Result) (request : Request) :
    ∃ cb, run env opt [.pick e request] =
      (primary env opt e.instances (getKey request)).map fun ins =>
        (cb, [⟨e, e.instances, getKey request, ins⟩]) := by
  have hnew : newConsistBalancer opt = .ok ⟨opt, getKey, ∅⟩ := by
    simp only [newConsistBalancer, hgetKey, if_neg hfactor]
  simp only [run, hnew, List.foldlM_cons, List.foldlM_nil, step, getPicker, newConsistInfo, primary,
    bind, Except.bind, pure, Except.pure, AList.lookup_empty]
  cases buildVirtualNodes env opt e.instances with
  | error panic =>
    refine ⟨⟨opt, getKey, ∅⟩, ?_⟩
    cases e.cacheable <;> rfl
  | ok nodes =>
    refine ⟨if e.cacheable then setInfo ⟨opt, getKey, ∅⟩ e.cacheKey ⟨e.instances, nodes⟩
      else ⟨opt, getKey, ∅⟩, ?_⟩
    cases hnext : pickerNext env ⟨e.instances, nodes⟩ (getKey request) <;>
      cases e.cacheable <;> simp [setInfo, hnext, Except.map]

/-- Building a picker and calling `Next` on it panics for no hash if and only if the balancer can be
made, the ring can be built, and the list or the key is empty or every place on the ring is taken;
it then returns an instance of the list, or nil for an empty list or key. -/
theorem picks_iff (opt : ConsistentHashOption Request) (e : Result) (request : Request) :
    (∀ env, ∃ cb pick, run env opt [.pick e request] = .ok (cb, [pick]) ∧
        Chosen e.instances pick.key pick.ins) ↔
      opt.virtualFactor ≠ 0 ∧ opt.Buildable e.instances ∧ ∃ getKey, opt.getKey = some getKey ∧
        (e.instances = [] ∨ getKey request = [] ∨ opt.Filled e.instances) := by
  constructor
  · intro hpicks
    obtain ⟨cb, pick, hrun, -⟩ := hpicks (insertionHashing fun _ => 1)
    cases hgetKey : opt.getKey with
    | none => simp [run, newConsistBalancer, hgetKey, bind, Except.bind] at hrun
    | some getKey =>
      have hfactor : opt.virtualFactor ≠ 0 := by
        intro hzero
        simp [run, newConsistBalancer, hgetKey, hzero, bind, Except.bind] at hrun
      obtain ⟨next, hpick⟩ :=
        @run_pick _ (insertionHashing fun _ => 1) _ _ hgetKey hfactor e request
      cases hprimary : primary (insertionHashing fun _ => 1) opt e.instances (getKey request) with
      | error panic => simp [hpick, hprimary, Except.map] at hrun
      | ok result =>
        obtain ⟨hbuildable, hchoice⟩ := filled_of_primary hprimary
        exact ⟨hfactor, hbuildable, getKey, rfl, hchoice⟩
  · rintro ⟨hfactor, hbuildable, getKey, hgetKey, hchoice⟩ env
    obtain ⟨cb, hpick⟩ := @run_pick _ env _ _ hgetKey hfactor e request
    obtain ⟨result, hprimary, hchosen⟩ := exists_chosen env hbuildable hchoice
    exact ⟨cb, _, by rw [hpick, hprimary]; rfl, hchosen⟩

end ConsistBalancer

/-- The requests are their own keys. -/
def ownKey (virtualFactor : UInt32) (weighted : Bool) : ConsistentHashOption Bytes :=
  ⟨some id, virtualFactor, weighted⟩

/-- The only instance has the weight zero: the ring is empty, and `Next` reads its
first node. -/
theorem ConsistBalancer.zero_weight_panics : run (insertionHashing fun _ => 0) (ownKey 100 true)
      [.pick ⟨true, "svc", [⟨0, [97], 0⟩]⟩ [107]] = .error .index := by
  rfl

/-! ## Further instances -/

/-- Different keys of virtual nodes have different hashes. -/
def CollisionFree (env : Hashing) (opt : ConsistentHashOption Request)
    (rNodes : List Instance) : Prop :=
  ∀ x ∈ rNodes, ∀ y ∈ rNodes, ∀ i < opt.nodeCount x, ∀ j < opt.nodeCount y,
    env.hash (nodeKey (opt.keyLen rNodes) x.address i) =
        env.hash (nodeKey (opt.keyLen rNodes) y.address j) →
      nodeKey (opt.keyLen rNodes) x.address i = nodeKey (opt.keyLen rNodes) y.address j

/-- What is chosen has a least node on the ring. -/
theorem exists_least_of_primary (hsized : opt.Sized rNodes)
    (hprimary : primary env opt rNodes key = .ok (some ins)) :
    key ≠ [] ∧ ins ∈ rNodes ∧ ∃ i < opt.nodeCount ins,
      ∀ other ∈ ringNodes env opt (opt.keyLen rNodes) rNodes,
        Ring.ahead (env.hash key).toNat
            (env.hash (nodeKey (opt.keyLen rNodes) ins.address i)).toNat ≤
          Ring.ahead (env.hash key).toNat other.hash.toNat := by
  rw [primary, buildVirtualNodes_eq hsized] at hprimary
  change pickerNext env _ key = _ at hprimary
  unfold pickerNext at hprimary
  split at hprimary
  next => nomatch hprimary
  next =>
    split at hprimary
    next => nomatch hprimary
    next hkey =>
      refine ⟨hkey, ?_⟩
      unfold buildConsistResult at hprimary
      split at hprimary
      next => nomatch hprimary
      next node hnode =>
        have hmem := (env.perm _).mem_iff.mp (List.mem_of_getElem? hnode)
        obtain ⟨owner, howner, i, hi, rfl⟩ := mem_ringNodes.mp hmem
        cases hprimary
        refine ⟨howner, i, hi, fun other hother => ?_⟩
        apply Ring.successor_least _ hnode ((env.perm _).mem_iff.mpr hother)
        exact (env.sorted _).imp UInt64.le_iff_toNat_le.mp

/-- A key has a primary where some instance has a node. -/
theorem primary_eq_some (env : Hashing) (hsized : opt.Sized rNodes) (hkey : key ≠ [])
    (hins : ins ∈ rNodes) (hcount : 0 < opt.nodeCount ins) :
    ∃ found, primary env opt rNodes key = .ok (some found) := by
  have hperm := env.perm (ringNodes env opt (opt.keyLen rNodes) rNodes)
  have hnode := hperm.mem_iff.mpr (mem_ringNodes.mpr ⟨ins, hins, 0, hcount, rfl⟩)
  obtain ⟨found, -, hresult⟩ := @buildConsistResult_eq_ok rNodes _ (List.ne_nil_of_mem hnode)
    (fun node hnode => by
      obtain ⟨ins, hins, j, -, rfl⟩ := mem_ringNodes.mp (hperm.mem_iff.mp hnode)
      exact ⟨ins, hins, rfl⟩) (env.hash key)
  refine ⟨found, ?_⟩
  rw [primary, buildVirtualNodes_eq hsized]
  change pickerNext env _ key = _
  rw [pickerNext, if_neg (List.ne_nil_of_mem hins), if_neg hkey, hresult]
  rfl

/-- The keys of all virtual nodes, in the order in which they are made. -/
def nodeKeys (opt : ConsistentHashOption Request) (l : Nat) (rNodes : List Instance) : List Bytes :=
  rNodes.flatMap fun ins => (List.range (opt.nodeCount ins)).map (nodeKey l ins.address)

theorem length_nodeKey_of_lt (hsized : opt.Sized rNodes) (hins : ins ∈ rNodes) {serial : Nat}
    (hserial : serial < opt.nodeCount ins) :
    (nodeKey (opt.keyLen rNodes) ins.address serial).length = opt.keyLen rNodes := by
  refine length_nodeKey (ConsistentHashOption.fits hins ?_)
  rw [hsized.getVirtualNodeLen hins]
  omega

/-- A hash that puts one of the keys in front of the others. -/
def frontHash (keys : List Bytes) (front key : Bytes) : UInt64 :=
  UInt64.ofNat ((front :: keys).idxOf key + 1)

theorem frontHash_self (keys : List Bytes) (front : Bytes) : frontHash keys front front = 1 := by
  rw [frontHash, List.idxOf_cons_self]
  rfl

theorem eq_of_frontHash_eq {keys : List Bytes} {front other : Bytes}
    (hkeys : keys.length ≤ maxVirtualNodes) (hmem : key ∈ keys)
    (heq : frontHash keys front key = frontHash keys front other) : key = other := by
  have hlt (key : Bytes) : (front :: keys).idxOf key + 1 < 2 ^ 64 := by
    have hle := List.idxOf_le_length (a := key) (l := front :: keys)
    rw [List.length_cons] at hle
    rw [maxVirtualNodes] at hkeys
    omega
  have hidx := congrArg UInt64.toNat heq
  rw [frontHash, frontHash, UInt64.toNat_ofNat_of_lt' (hlt key),
    UInt64.toNat_ofNat_of_lt' (hlt other)] at hidx
  exact (List.idxOf_inj (List.mem_cons_of_mem front hmem)).mp (Nat.succ.inj hidx)

section Front

variable (hsized : opt.Sized rNodes) {front : Bytes}
  (hhash : ∀ node, node.length = opt.keyLen rNodes →
    env.hash node = frontHash (nodeKeys opt (opt.keyLen rNodes) rNodes) front node)
include hsized hhash

theorem collisionFree_of_front : CollisionFree env opt rNodes := by
  intro x hx y hy i hi j hj heq
  have hkeys : (nodeKeys opt (opt.keyLen rNodes) rNodes).length ≤ maxVirtualNodes := by
    simpa [nodeKeys, List.length_flatMap] using hsized.total
  rw [hhash _ (length_nodeKey_of_lt hsized hx hi), hhash _ (length_nodeKey_of_lt hsized hy hj)]
    at heq
  exact eq_of_frontHash_eq hkeys
    (List.mem_flatMap.mpr ⟨x, hx, List.mem_map_of_mem (List.mem_range.mpr hi)⟩) heq

/-- The instance with the node in front is the primary of what has the hash zero. -/
theorem primary_of_front (haddress : ∀ x ∈ rNodes, ∀ y ∈ rNodes, x.address = y.address → x = y)
    (hins : ins ∈ rNodes) (hcount : 0 < opt.nodeCount ins)
    (hfront : front = nodeKey (opt.keyLen rNodes) ins.address 0) (hkey : key ≠ [])
    (hzero : env.hash key = 0) : primary env opt rNodes key = .ok (some ins) := by
  have hself : env.hash (nodeKey (opt.keyLen rNodes) ins.address 0) = 1 := by
    rw [hhash _ (length_nodeKey_of_lt hsized hins hcount), hfront, frontHash_self]
  obtain ⟨found, hfound⟩ := primary_eq_some env hsized hkey hins hcount
  obtain ⟨-, hx, i, hi, hleast⟩ := exists_least_of_primary hsized hfound
  have hone : env.hash (nodeKey (opt.keyLen rNodes) found.address i) = 1 := by
    have hle := hleast _ (mem_ringNodes.mpr ⟨ins, hins, 0, hcount, rfl⟩)
    rw [hzero, hself] at hle
    rcases @Ring.least_after_of_ahead_le _ _ 0 _ [1] (by simpa using hle) with hafter | hnone
    · exact UInt64.toNat_inj.mp (Nat.le_antisymm (hafter.2 1 (by simp) (by simp)) hafter.1)
    · simpa using (hnone 1 (by simp)).1
  rw [hfound, haddress ins hins found hx (address_eq_of_nodeKey_eq
    (collisionFree_of_front hsized hhash ins hins found hx 0 hcount i hi (hself.trans hone.symm)))]

end Front

/-- A node of one instance comes first on the new ring, and a node of another one on the old. -/
def turned (opt : ConsistentHashOption Request) (old new : List Instance) (ins oldIns : Instance) :
    Hashing :=
  insertionHashing fun key =>
    if key.length = opt.keyLen new then
      frontHash (nodeKeys opt (opt.keyLen new) new) (nodeKey (opt.keyLen new) ins.address 0) key
    else if key.length = opt.keyLen old then
      frontHash (nodeKeys opt (opt.keyLen old) old) (nodeKey (opt.keyLen old) oldIns.address 0) key
    else 0

/-- Adding instances moves no key between old instances while the buffer for the keys
has the same length. -/
theorem primary_of_same_keyLen {old new : List Instance} (hsub : old ⊆ new) (hold : opt.Sized old)
    (hnew : opt.Sized new) (hlen : opt.keyLen old = opt.keyLen new)
    (haddress : ∀ x ∈ new, ∀ y ∈ new, x.address = y.address → x = y)
    (hhash : CollisionFree env opt new) {key : Bytes} {ins : Instance}
    (hprimary : primary env opt new key = .ok (some ins)) :
    ins ∉ old ∨ primary env opt old key = .ok (some ins) := by
  refine or_iff_not_imp_left.mpr fun hins => ?_
  rw [not_not] at hins
  obtain ⟨hkey, hmem, i, hi, hleast⟩ := exists_least_of_primary hnew hprimary
  obtain ⟨found, hfound⟩ := primary_eq_some env hold hkey hins (by omega)
  obtain ⟨-, hy, j, hj, hleast'⟩ := exists_least_of_primary hold hfound
  rw [hlen] at hleast'
  -- the ring of the old instances is part of the new one, and has the least node
  have hhashes := Ring.ahead_injective _ (le_antisymm
    (hleast _ (mem_ringNodes.mpr ⟨found, hsub hy, j, hj, rfl⟩))
    (hleast' _ (mem_ringNodes.mpr ⟨ins, hins, i, hi, rfl⟩)))
  have hkeys := hhash ins hmem found (hsub hy) i hi j hj (UInt64.toNat_inj.mp hhashes)
  rw [hfound, haddress ins hmem found (hsub hy) (address_eq_of_nodeKey_eq hkeys)]

/-- With at most one old instance on the ring there is nowhere else to move to. -/
theorem primary_of_one_old {old new : List Instance} (hold : opt.Sized old) (hnew : opt.Sized new)
    (hone : ∀ x ∈ old, ∀ y ∈ old, 0 < opt.nodeCount x → 0 < opt.nodeCount y → x = y)
    (hprimary : primary env opt new key = .ok (some ins)) :
    ins ∉ old ∨ primary env opt old key = .ok (some ins) := by
  refine or_iff_not_imp_left.mpr fun hins => ?_
  rw [not_not] at hins
  obtain ⟨hkey, -, i, hi, -⟩ := exists_least_of_primary hnew hprimary
  obtain ⟨found, hfound⟩ := primary_eq_some env hold hkey hins (by omega)
  obtain ⟨-, hmem, j, hj, -⟩ := exists_least_of_primary hold hfound
  rw [hfound, hone ins hins found hmem (by omega) (by omega)]

/-- No hash lets further instances move a key between old ones if and only if the buffers for the
keys have the same length, or at most one old instance is on the ring. -/
theorem primary_monotone {old new : List Instance} (hsub : old ⊆ new) (hold : opt.Sized old)
    (hnew : opt.Sized new) (haddress : ∀ x ∈ new, ∀ y ∈ new, x.address = y.address → x = y) :
    (∀ env, CollisionFree env opt old → CollisionFree env opt new → ∀ key ins,
        primary env opt new key = .ok (some ins) →
          ins ∉ old ∨ primary env opt old key = .ok (some ins)) ↔
      opt.keyLen old = opt.keyLen new ∨
        ∀ x ∈ old, ∀ y ∈ old, 0 < opt.nodeCount x → 0 < opt.nodeCount y → x = y := by
  constructor
  · intro hmonotone
    refine or_iff_not_imp_left.mpr fun hlen x hx y hy hcountX hcountY => ?_
    have hnewHash : ∀ node, node.length = opt.keyLen new → (turned opt old new x y).hash node = _ :=
      fun node hnode => if_pos hnode
    have holdHash : ∀ node, node.length = opt.keyLen old → (turned opt old new x y).hash node = _ :=
      fun node hnode => (if_neg (by omega)).trans (if_pos hnode)
    -- a key that is longer than those of the nodes
    have hnil : List.replicate (opt.keyLen old + opt.keyLen new) (0 : UInt8) ≠ [] := by
      simp [ConsistentHashOption.keyLen]
    have hzero : (turned opt old new x y).hash
        (List.replicate (opt.keyLen old + opt.keyLen new) 0) = 0 := by
      simp [turned, insertionHashing, ConsistentHashOption.keyLen]
    have hoverNew := primary_of_front hnew hnewHash haddress (hsub hx) hcountX rfl hnil hzero
    have hoverOld := primary_of_front hold holdHash
      (fun x hx y hy => haddress x (hsub hx) y (hsub hy)) hy hcountY rfl hnil hzero
    have hkeeps := (hmonotone _ (collisionFree_of_front hold holdHash)
      (collisionFree_of_front hnew hnewHash) _ _ hoverNew).resolve_left (not_not.mpr hx)
    simpa using hkeeps.symm.trans hoverOld
  · rintro (hlen | hone) env - hhash key ins hprimary
    · exact primary_of_same_keyLen hsub hold hnew hlen haddress hhash hprimary
    · exact primary_of_one_old hold hnew hone hprimary

/-- Hash a key by its first byte. -/
def firstByte : Hashing := insertionHashing fun bs => (bs.headD 0).toUInt64

/-- A third instance with an address of the same length leaves the request with the first. -/
theorem primary_monotone_keeps :
    primary firstByte (ownKey 1 false) [⟨0, [97], 1⟩, ⟨1, [98], 1⟩, ⟨2, [99], 1⟩] [96] =
        .ok (some ⟨0, [97], 1⟩) ∧
      primary firstByte (ownKey 1 false) [⟨0, [97], 1⟩, ⟨1, [98], 1⟩] [96] =
        .ok (some ⟨0, [97], 1⟩) := by
  have hmonotone := @primary_monotone _ (ownKey 1 false) [⟨0, [97], 1⟩, ⟨1, [98], 1⟩]
    [⟨0, [97], 1⟩, ⟨1, [98], 1⟩, ⟨2, [99], 1⟩] (by simp) ⟨by decide, by decide⟩
    ⟨by decide, by decide⟩ (by decide)
  have hkeeps := hmonotone.mpr (.inl rfl) firstByte (by unfold CollisionFree; decide)
    (by unfold CollisionFree; decide) [96] ⟨0, [97], 1⟩ rfl
  exact ⟨rfl, hkeeps.resolve_left (by simp)⟩

/-- Hash a key by its first byte, in a direction that its length decides. -/
def turning : Hashing := insertionHashing fun bs =>
  if bs.length = 3 then (bs.headD 0).toUInt64
  else if bs.length = 4 then 255 - (bs.headD 0).toUInt64
  else 156

/-- An instance with a longer address makes all keys longer, and a request moves from
one of the other instances to the other. -/
theorem longer_address_moves_key :
    CollisionFree turning (ownKey 1 false) [⟨0, [97], 1⟩, ⟨1, [98], 1⟩, ⟨2, [99, 99], 1⟩] ∧
      CollisionFree turning (ownKey 1 false) [⟨0, [97], 1⟩, ⟨1, [98], 1⟩] ∧
      primary turning (ownKey 1 false) [⟨0, [97], 1⟩, ⟨1, [98], 1⟩, ⟨2, [99, 99], 1⟩] [107] =
        .ok (some ⟨1, [98], 1⟩) ∧
      primary turning (ownKey 1 false) [⟨0, [97], 1⟩, ⟨1, [98], 1⟩] [107] =
        .ok (some ⟨0, [97], 1⟩) := by
  refine ⟨?_, ?_, rfl, rfl⟩
  · unfold CollisionFree
    decide
  · unfold CollisionFree
    decide

/-! ## The owners of the nodes -/

theorem map_hash_ringNodes :
    (ringNodes env opt l rNodes).map (·.hash) = (nodeKeys opt l rNodes).map env.hash := by
  simp [ringNodes, instanceNodes, nodeKeys, List.map_flatMap, Function.comp_def]

theorem nodup_nodeKeys (haddress : (rNodes.map (·.address)).Nodup) :
    (nodeKeys opt l rNodes).Nodup := by
  refine List.nodup_flatMap.mpr ⟨fun ins _ => ?_, ?_⟩
  · exact List.nodup_range.map fun _ _ => serial_eq_of_nodeKey_eq
  · refine (List.pairwise_map.mp haddress).imp fun {x y} hne => ?_
    rintro key hx hy
    obtain ⟨i, -, rfl⟩ := List.mem_map.mp hx
    obtain ⟨j, -, hkey⟩ := List.mem_map.mp hy
    exact hne (address_eq_of_nodeKey_eq hkey).symm

theorem nodup_map_hash (haddress : (rNodes.map (·.address)).Nodup)
    (hhash : CollisionFree env opt rNodes) :
    ((ringNodes env opt (opt.keyLen rNodes) rNodes).map (·.hash)).Nodup := by
  rw [map_hash_ringNodes]
  refine (nodup_nodeKeys haddress).map_on fun key hkey other hother heq => ?_
  simp only [nodeKeys, List.mem_flatMap, List.mem_map, List.mem_range] at hkey hother
  obtain ⟨x, hx, i, hi, rfl⟩ := hkey
  obtain ⟨y, hy, j, hj, rfl⟩ := hother
  exact hhash x hx y hy i hi j hj heq

/-- An instance has the nodes that were made for it, and no other ones. -/
theorem countP_ringNodes (hnodup : rNodes.Nodup) (hins : ins ∈ rNodes) :
    (ringNodes env opt l rNodes).countP (·.realNode = some ins) = opt.nodeCount ins := by
  have hown : ∀ x, (instanceNodes env l x (opt.nodeCount x)).countP (·.realNode = some ins) =
      if x = ins then opt.nodeCount x else 0 := by
    intro x
    by_cases hx : x = ins <;> simp [instanceNodes, List.countP_map, Function.comp_def, hx]
  rw [ringNodes, List.countP_flatMap]
  have hsum := List.sum_map_eq_nsmul_single (l := rNodes) ins
    (fun x => if x = ins then opt.nodeCount x else 0) fun x hne _ => if_neg hne
  rw [List.count_eq_one_of_mem hnodup hins, one_nsmul, if_pos rfl] at hsum
  rw [← hsum]
  exact congrArg List.sum (List.map_congr_left fun x _ => hown x)

theorem exists_nodeCount_pos (hfactor : opt.virtualFactor ≠ 0)
    (hweight : 0 < (rNodes.map (·.weight)).sum) : ∃ ins ∈ rNodes, 0 < opt.nodeCount ins := by
  have hfactor' : 0 < opt.virtualFactor.toNat :=
    Nat.pos_of_ne_zero fun hzero => hfactor (UInt32.toNat_inj.mp hzero)
  obtain ⟨ins, hins, hpos⟩ : ∃ ins ∈ rNodes, 0 < ins.weight := by
    apply List.exists_lt_of_sum_lt (fun _ => 0) Instance.weight
    simpa using hweight
  refine ⟨ins, hins, ?_⟩
  unfold ConsistentHashOption.nodeCount
  split
  next => exact Nat.mul_pos (by omega) hfactor'
  next => exact hfactor'

/-- The ring holds as many nodes of each instance as it is to have, with different keys and hashes,
and the primary of a key owns the first node after the hash of the key. -/
theorem primary_owns_successor (hsized : opt.Sized rNodes) (hfactor : opt.virtualFactor ≠ 0)
    (hweight : 0 < (rNodes.map (·.weight)).sum) (haddress : (rNodes.map (·.address)).Nodup)
    (hhash : CollisionFree env opt rNodes) : ∃ nodes, buildVirtualNodes env opt rNodes = .ok nodes ∧
      (nodeKeys opt (opt.keyLen rNodes) rNodes).Nodup ∧
      (nodes.map (·.hash)).Perm ((nodeKeys opt (opt.keyLen rNodes) rNodes).map env.hash) ∧
      (nodes.map (·.hash)).Nodup ∧
      (∀ ins ∈ rNodes, nodes.countP (·.realNode = some ins) = opt.nodeCount ins) ∧
      ∀ key ≠ [], ∃ ins, primary env opt rNodes key = .ok (some ins) ∧
        ∃ node ∈ nodes, node.realNode = some ins ∧
          ((env.hash key < node.hash ∧
              ∀ other ∈ nodes, env.hash key < other.hash → node.hash ≤ other.hash) ∨
            ∀ other ∈ nodes, other.hash ≤ env.hash key ∧ node.hash ≤ other.hash) := by
  have hperm := env.perm (ringNodes env opt (opt.keyLen rNodes) rNodes)
  refine ⟨_, buildVirtualNodes_eq hsized, nodup_nodeKeys haddress, ?_, ?_, ?_, ?_⟩
  · rw [← map_hash_ringNodes]
    exact hperm.map _
  · exact (hperm.map _).nodup_iff.mpr (nodup_map_hash haddress hhash)
  · intro ins hins
    rw [hperm.countP_eq, countP_ringNodes (List.Nodup.of_map _ haddress) hins]
  · intro key hkey
    obtain ⟨owner, howner, hcount⟩ := exists_nodeCount_pos hfactor hweight
    obtain ⟨ins, hins⟩ := primary_eq_some env hsized hkey howner hcount
    obtain ⟨-, hmem, i, hi, hleast⟩ := exists_least_of_primary hsized hins
    refine ⟨ins, hins, _, hperm.mem_iff.mpr (mem_ringNodes.mpr ⟨ins, hmem, i, hi, rfl⟩), rfl, ?_⟩
    simp only [hperm.mem_iff, UInt64.lt_iff_toNat_lt, UInt64.le_iff_toNat_le]
    have hcases := @Ring.least_after_of_ahead_le _ _ (env.hash key).toNat _
      ((ringNodes env opt (opt.keyLen rNodes) rNodes).map (·.hash.toNat)) (by simpa using hleast)
    simpa using hcases

/-- Five nodes of two instances. -/
def weightedPair : List Instance := [⟨0, [97], 2⟩, ⟨1, [98], 3⟩]

/-- Hash a key by its first and its last byte. -/
def bothEnds : Hashing :=
  insertionHashing fun bs => (bs.headD 0).toUInt64 * 256 + (bs.getLastD 0).toUInt64

theorem primary_owns_successor_weighted : CollisionFree bothEnds (ownKey 1 true) weightedPair ∧
    ∃ nodes, buildVirtualNodes bothEnds (ownKey 1 true) weightedPair = .ok nodes ∧
      nodes.map (·.hash) = [24832, 24833, 25088, 25089, 25090] ∧
      (∀ ins ∈ weightedPair,
        nodes.countP (·.realNode = some ins) = (ownKey 1 true).nodeCount ins) ∧
      primary bothEnds (ownKey 1 true) weightedPair [97, 7] = .ok (some ⟨1, [98], 3⟩) := by
  have hhash : CollisionFree bothEnds (ownKey 1 true) weightedPair := by
    unfold CollisionFree
    decide
  obtain ⟨nodes, hnodes, -, -, -, hcount, hprimary⟩ := primary_owns_successor ⟨by decide, by decide⟩
    (by decide) (by decide) (by decide) hhash
  refine ⟨hhash, nodes, hnodes, ?_, hcount, ?_⟩
  · cases hnodes
    rfl
  · obtain ⟨ins, hins, -⟩ := hprimary [97, 7] (by simp)
    rw [hins]
    exact hins.symm.trans rfl

/-- Two instances with one address have the same keys, and so the same hashes whatever the hash is;
a negative weight makes the loops write beyond the ring; more than `2 ^ 44` nodes cannot be
allocated; and for an empty key there is no primary. -/
theorem same_address_same_keys :
    (nodeKeys (ownKey 1 false) 3 [⟨0, [97], 1⟩, ⟨1, [97], 1⟩] =
        [nodeKey 3 [97] 0, nodeKey 3 [97] 0] ∧
      (buildVirtualNodes firstByte (ownKey 1 false) [⟨0, [97], 1⟩, ⟨1, [97], 1⟩]).map
        (·.map (·.hash)) = .ok [97, 97]) ∧
    buildVirtualNodes firstByte (ownKey 1 true) [⟨0, [97], 3⟩, ⟨1, [98], -1⟩] = .error .index ∧
    buildVirtualNodes firstByte (ownKey 1 true) [⟨0, [97], 2 ^ 44 + 1⟩] = .error .makeSlice ∧
    primary firstByte (ownKey 1 true) [⟨0, [97], 1⟩] [] = .ok none :=
  ⟨⟨rfl, rfl⟩, rfl, rfl, rfl⟩

/-! ## The order of the instances -/

theorem foldl_max_perm {α β : Type} [LinearOrder β] {xs ys : List α} (hperm : xs.Perm ys)
    (f : α → β) (start : β) :
    xs.foldl (fun most x => if most < f x then f x else most) start =
      ys.foldl (fun most x => if most < f x then f x else most) start := by
  refine hperm.foldl_eq' (fun x _ y _ most => ?_) start
  split_ifs <;> grind

/-- The choice does not depend on the order of the instances. -/
theorem primary_perm {list other : List Instance} (hperm : list.Perm other)
    (hsized : opt.Sized list) (haddress : ∀ x ∈ list, ∀ y ∈ list, x.address = y.address → x = y)
    (hhash : CollisionFree env opt list)
    (hprimary : primary env opt list key = .ok (some ins)) :
    primary env opt other key = .ok (some ins) := by
  have hlen : opt.keyLen other = opt.keyLen list :=
    congrArg₂ (fun len serial => len + 1 + getUIntLen (Int.toNat serial))
      (foldl_max_perm hperm.symm _ 0) (foldl_max_perm hperm.symm _ 0)
  have hsized' : opt.Sized other :=
    ⟨fun h ins hins => hsized.weights h ins (hperm.mem_iff.mpr hins),
      (hperm.map opt.nodeCount).sum_eq ▸ hsized.total⟩
  -- each list is part of the other, and the keys have the same length
  have hins := (exists_least_of_primary hsized hprimary).2.1
  exact (primary_of_same_keyLen hperm.symm.subset hsized' hsized hlen haddress hhash
    hprimary).resolve_left (not_not.mpr (hperm.mem_iff.mp hins))

theorem primary_perm_swapped :
    primary firstByte (ownKey 1 false) [⟨1, [98], 1⟩, ⟨0, [97], 1⟩] [107] =
      .ok (some ⟨0, [97], 1⟩) := by
  refine primary_perm (.swap _ _ []) ⟨by decide, by decide⟩ (by decide) ?_ rfl
  unfold CollisionFree
  decide

end Kitex.LoadBalance
