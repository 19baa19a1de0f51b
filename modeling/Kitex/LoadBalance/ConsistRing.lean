import Mathlib.Algebra.Order.BigOperators.Group.List
import Mathlib.Data.Nat.Digits.Lemmas
import Kitex.LoadBalance.Consist

/-! # The virtual nodes of a list of instances

The loops that fill the ring write each virtual node to its place. The keys are those that
the instances have by themselves in a buffer of the given length. When no number of virtual
nodes is negative and there are not too many of them, no write is out of range, and the ring
holds one node for each key.
-/

namespace Kitex.LoadBalance

open Kitex.Container

/-! ## Digits -/

variable {α : Type}

theorem setAt_eq {xs : List α} {index : Nat} (hindex : index < xs.length) (a : α) :
    setAt xs index a = .ok (xs.set index a) := by
  simp [setAt, hindex]

/-- The digits replace the end of the part of the buffer that is still to be written. -/
theorem foldlM_setAt {l : Nat} {b : Bytes} (hlength : b.length = l) (digits : List Nat)
    (start : Nat) (hfits : start + digits.length ≤ l) : (digits.zipIdx start).foldlM
        (fun b digit => setAt b ((l : Int) - 1 - digit.2) (UInt8.ofNat digit.1)) b =
      .ok (b.take (l - start - digits.length) ++ (digits.map UInt8.ofNat).reverse ++
        b.drop (l - start)) := by
  induction digits generalizing b start with
  | nil => simp [pure, Except.pure]
  | cons digit digits ih =>
    rw [List.length_cons] at hfits
    have hindex : ((l : Int) - 1 - start) = (l - (start + 1) : Nat) := by omega
    have hlt : l - (start + 1) < b.length := by omega
    rw [List.zipIdx_cons, List.foldlM_cons, hindex, setAt_eq hlt]
    change (digits.zipIdx (start + 1)).foldlM _ (b.set (l - (start + 1)) _) = _
    rw [ih (by simpa using hlength) (start + 1) (by omega)]
    have htake : (b.set (l - (start + 1)) (UInt8.ofNat digit)).take
        (l - (start + 1) - digits.length) = b.take (l - start - (digits.length + 1)) := by
      rw [List.take_set_of_le (by omega)]
      congr 1
      omega
    have hdrop : (b.set (l - (start + 1)) (UInt8.ofNat digit)).drop (l - (start + 1)) =
        UInt8.ofNat digit :: b.drop (l - start) := by
      rw [List.drop_eq_getElem_cons (by simpa using hlt), List.getElem_set_self,
        List.drop_set_of_lt (by omega)]
      congr 2
      omega
    rw [htake, hdrop]
    simp

theorem length_digits_le_uintLenLoop {fuel n cnt : Nat} (hfuel : n ≤ fuel) :
    (Nat.digits 10 n).length + cnt ≤ uintLenLoop fuel n cnt + 1 := by
  induction fuel generalizing n cnt with
  | zero =>
    obtain rfl : n = 0 := by omega
    simp [uintLenLoop]
  | succ fuel ih =>
    rw [uintLenLoop]
    split
    next hge =>
      have hrest := @ih (n / 10) (cnt + 1) (by omega)
      rw [Nat.digits_def' (by decide) (by omega), List.length_cons]
      omega
    next hlt =>
      have hle := (Nat.digits_length_le_iff (by decide : 1 < 10) n).mpr
        (by omega : n < 10 ^ 1)
      omega

/-- A serial number fits into the place that the largest one needs. -/
theorem length_digits_le_getUIntLen {serial n : Nat} (hle : serial ≤ n) :
    (Nat.digits 10 serial).length ≤ getUIntLen n := by
  have hloop := @length_digits_le_uintLenLoop n n 1 (Nat.le_refl n)
  exact Nat.le_trans (Nat.le_length_digits_le 10 serial n hle) (Nat.le_of_succ_le_succ hloop)

/-! ## Keys -/

/-- The key of a virtual node in a buffer of a given length. -/
def nodeKey (l : Nat) (address : Bytes) (serial : Nat) : Bytes :=
  address ++ 35 :: (List.replicate (l - (address.length + 1) - (Nat.digits 10 serial).length) 0 ++
    ((Nat.digits 10 serial).map UInt8.ofNat).reverse)

variable {l : Nat} {b address : Bytes} {serial next : Nat} {serial' : Nat}

theorem length_nodeKey (hfits : address.length + 1 + (Nat.digits 10 serial).length ≤ l) :
    (nodeKey l address serial).length = l := by
  simp only [nodeKey, List.length_append, List.length_cons, List.length_replicate,
    List.length_reverse, List.length_map]
  omega

theorem setAddress_eq (hlength : b.length = l) (hfits : address.length + 1 ≤ l) :
    setAddress b address = .ok (nodeKey l address 0) := by
  have hcopy : copy b address = address ++ b.drop address.length := by
    rw [copy, List.take_of_length_le (by omega)]
  obtain ⟨first, hfirst⟩ : ∃ first, b.drop address.length = first :: b.drop (address.length + 1) :=
    ⟨_, List.drop_eq_getElem_cons (by omega)⟩
  have hcopied : (copy b address).length = l := by
    simp only [hcopy, List.length_append, List.length_drop]
    omega
  have htake : (copy b address).take (address.length + 1) = address ++ [first] := by
    rw [hcopy, hfirst, List.take_append]
    simp
  simp only [setAddress, hcopied, htake]
  rw [setAt_eq (by simp)]
  simp [nodeKey]

/-- Later serial numbers have at least as many digits, so they hide the earlier ones. -/
theorem setSerial_nodeKey (hle : serial ≤ next)
    (hfits : address.length + 1 + (Nat.digits 10 next).length ≤ l) :
    setSerial l (nodeKey l address serial) next = .ok (nodeKey l address next) := by
  have hdigits := Nat.le_length_digits_le 10 serial next hle
  rw [setSerial, foldlM_setAt (length_nodeKey (by omega)) _ 0 (by omega)]
  congr 1
  have hdrop : (nodeKey l address serial).drop (l - 0) = [] := by
    rw [List.drop_eq_nil_iff, length_nodeKey (by omega)]
    omega
  have htake : (nodeKey l address serial).take (l - 0 - (Nat.digits 10 next).length) =
      address ++ 35 :: List.replicate
        (l - (address.length + 1) - (Nat.digits 10 next).length) 0 := by
    rw [nodeKey, ← List.cons_append, ← List.append_assoc, List.take_append_of_le_length,
      List.take_append, List.take_of_length_le (by omega)]
    · congr 1
      rw [show l - 0 - (Nat.digits 10 next).length - address.length =
        (l - (address.length + 1) - (Nat.digits 10 next).length) + 1 by omega,
        List.take_succ_cons, List.take_replicate]
      congr 2
      omega
    · simp only [List.length_append, List.length_cons, List.length_replicate]
      omega
  rw [hdrop, htake]
  simp [nodeKey]

/-- The place of the last separator decides what stands before it. -/
theorem eq_of_append_cons_eq {a : α} {x y t t' : List α} (ht : a ∉ t) (ht' : a ∉ t')
    (heq : x ++ a :: t = y ++ a :: t') : x = y := by
  rcases List.append_eq_append_iff.mp heq with ⟨rest, hy, hrest⟩ | ⟨rest, hx, hrest⟩
  · cases rest with
    | nil => simpa using hy.symm
    | cons first rest =>
      rw [List.cons_append, List.cons.injEq] at hrest
      exact absurd (by simp [hrest.2]) ht
  · cases rest with
    | nil => simpa using hx
    | cons first rest =>
      rw [List.cons_append, List.cons.injEq] at hrest
      exact absurd (by simp [hrest.2]) ht'

/-- Behind the `#` stand digits only, so the address can be read off. -/
theorem address_eq_of_nodeKey_eq {other : Bytes}
    (heq : nodeKey l address serial = nodeKey l other serial') : address = other := by
  have hdigits : ∀ n k : Nat, (35 : UInt8) ∉ List.replicate k 0 ++
      ((Nat.digits 10 n).map UInt8.ofNat).reverse := by
    intro n k hmem
    rcases List.mem_append.mp hmem with hzero | hdigit
    · exact absurd (List.mem_replicate.mp hzero).2 (by decide)
    · obtain ⟨digit, hmem, heq⟩ := List.mem_map.mp (List.mem_reverse.mp hdigit)
      have hlt := Nat.digits_lt_base (by decide : 1 < 10) hmem
      interval_cases digit <;> exact absurd heq (by decide)
  exact eq_of_append_cons_eq (hdigits _ _) (hdigits _ _) heq

/-- The digits can be read back, since leading zeros do not count. -/
theorem serial_eq_of_nodeKey_eq (heq : nodeKey l address serial = nodeKey l address serial') :
    serial = serial' := by
  have hread : ∀ n k : Nat, Nat.ofDigits 10 (((List.replicate k 0 ++
      ((Nat.digits 10 n).map UInt8.ofNat).reverse).reverse).map UInt8.toNat) = n := by
    intro n k
    have hdigits : ((Nat.digits 10 n).map UInt8.ofNat).map UInt8.toNat = Nat.digits 10 n := by
      rw [List.map_map]
      refine (List.map_congr_left fun digit hdigit => ?_).trans (List.map_id _)
      have hlt := Nat.digits_lt_base (by decide : 1 < 10) hdigit
      exact UInt8.toNat_ofNat_of_lt' (Nat.lt_trans hlt (by decide))
    rw [List.reverse_append, List.reverse_reverse, List.reverse_replicate, List.map_append,
      hdigits, List.map_replicate, UInt8.toNat_zero, Nat.ofDigits_append_replicate_zero]
    exact Nat.ofDigits_digits 10 n
  have hrest := List.append_cancel_left heq
  rw [List.cons.injEq] at hrest
  rw [← hread serial, hrest.2, hread]

/-! ## Numbers of virtual nodes -/

variable {Request : Type}

namespace ConsistentHashOption

/-- The number of virtual nodes of an instance whose weight is not negative. -/
def nodeCount (opt : ConsistentHashOption Request) (ins : Instance) : Nat :=
  if opt.weighted then ins.weight.toNat * opt.virtualFactor.toNat else opt.virtualFactor.toNat

/-- No weight that counts is negative, and the virtual nodes can be allocated. -/
structure Sized (opt : ConsistentHashOption Request) (rNodes : List Instance) : Prop where
  weights : opt.weighted = true → ∀ ins ∈ rNodes, 0 ≤ ins.weight
  total : (rNodes.map opt.nodeCount).sum ≤ maxVirtualNodes

variable {opt : ConsistentHashOption Request} {rNodes : List Instance} {ins : Instance}

theorem wrapInt_eq {n : Nat} (hn : n ≤ maxVirtualNodes) : wrapInt n = n := by
  unfold maxVirtualNodes at hn
  exact Int.bmod_eq_of_le (by omega) (by omega)

namespace Sized

theorem nodeCount_le (hsized : opt.Sized rNodes) (hins : ins ∈ rNodes) :
    opt.nodeCount ins ≤ maxVirtualNodes :=
  Nat.le_trans (List.single_le_sum (by simp) _ (List.mem_map_of_mem hins)) hsized.total

theorem getVirtualNodeLen (hsized : opt.Sized rNodes) (hins : ins ∈ rNodes) :
    opt.getVirtualNodeLen ins = opt.nodeCount ins := by
  have hle := hsized.nodeCount_le hins
  unfold ConsistentHashOption.getVirtualNodeLen nodeCount at *
  split
  next hweighted =>
    rw [if_pos hweighted] at hle
    have hweight : (ins.weight.toNat : Int) = ins.weight :=
      Int.toNat_of_nonneg (hsized.weights hweighted ins hins)
    rw [← hweight, ← Int.natCast_mul, wrapInt_eq hle]
    simp
  next => rfl

theorem of_cons (hsized : opt.Sized (ins :: rNodes)) : opt.Sized rNodes where
  weights hweighted other hother := hsized.weights hweighted other (List.mem_cons_of_mem _ hother)
  total := by
    have htotal := hsized.total
    rw [List.map_cons, List.sum_cons] at htotal
    omega

theorem totalLen (hsized : opt.Sized rNodes) :
    opt.totalLen rNodes = (rNodes.map opt.nodeCount).sum := by
  -- the sum so far is part of the total, so it does not overflow
  have hfold : ∀ (rest : List Instance) (sum : Nat), opt.Sized rest →
      sum + (rest.map opt.nodeCount).sum ≤ maxVirtualNodes →
      rest.foldl (fun total ins => wrapInt (total + opt.getVirtualNodeLen ins)) (sum : Int) =
        (sum + (rest.map opt.nodeCount).sum : Nat) := by
    intro rest
    induction rest with
    | nil => simp
    | cons ins rest ih =>
      intro sum hrest hle
      rw [List.map_cons, List.sum_cons, ← Nat.add_assoc] at hle
      rw [List.foldl_cons, hrest.getVirtualNodeLen List.mem_cons_self, ← Int.natCast_add,
        wrapInt_eq (by omega), ih _ hrest.of_cons hle, List.map_cons, List.sum_cons,
        Nat.add_assoc]
  unfold ConsistentHashOption.totalLen
  simpa using hfold rNodes 0 hsized (by simpa using hsized.total)

end Sized

/-- A running maximum bounds what it has seen. -/
theorem le_foldl_max {α β : Type} [LinearOrder β] (f : α → β) (xs : List α) (start : β) :
    start ≤ xs.foldl (fun most x => if most < f x then f x else most) start ∧
      ∀ x ∈ xs, f x ≤ xs.foldl (fun most x => if most < f x then f x else most) start := by
  induction xs generalizing start with
  | nil => simp
  | cons first rest ih =>
    obtain ⟨hstart, hrest⟩ := ih (if start < f first then f first else start)
    have hboth : start ≤ (if start < f first then f first else start) ∧
        f first ≤ (if start < f first then f first else start) := by
      split
      next hlt => exact ⟨hlt.le, le_refl _⟩
      next hge => exact ⟨le_refl _, not_lt.mp hge⟩
    refine ⟨hboth.1.trans hstart, ?_⟩
    intro x hx
    rcases List.mem_cons.mp hx with rfl | hx
    · exact hboth.2.trans hstart
    · exact hrest x hx

/-- Every key fits into the buffer. -/
theorem fits (hins : ins ∈ rNodes) {serial : Nat}
    (hserial : serial ≤ (opt.getVirtualNodeLen ins).toNat) :
    ins.address.length + 1 + (Nat.digits 10 serial).length ≤ opt.keyLen rNodes := by
  have haddress := (le_foldl_max (fun ins : Instance => ins.address.length) rNodes 0).2 ins hins
  have hcount := (le_foldl_max opt.getVirtualNodeLen rNodes 0).2 ins hins
  have hdigits : (Nat.digits 10 serial).length ≤ getUIntLen (opt.maxSerial rNodes).toNat :=
    length_digits_le_getUIntLen (hserial.trans (Int.toNat_le_toNat hcount))
  exact Nat.add_le_add (Nat.add_le_add_right haddress 1) hdigits

end ConsistentHashOption

/-! ## The loops -/

open ConsistentHashOption

variable {env : Hashing} {opt : ConsistentHashOption Request} {rNodes : List Instance}
  {ins : Instance}

/-- `xs[index] = a` for one pair after another. -/
def setAll (xs : List α) (pairs : List (Int × α)) : Except Panic (List α) :=
  pairs.foldlM (fun xs pair => setAt xs pair.1 pair.2) xs

theorem setAll_append (xs : List α) (first second : List (Int × α)) :
    setAll xs (first ++ second) = setAll xs first >>= (setAll · second) :=
  List.foldlM_append

/-- The virtual nodes of an instance with their places on the ring. -/
def placedNodes (env : Hashing) (l : Nat) (cur : Int) (ins : Instance) (count : Nat) :
    List (Int × VirtualNode) :=
  (List.range count).map fun j : Nat =>
    (wrapInt (cur + j), ⟨env.hash (nodeKey l ins.address j), some ins⟩)

/-- Each instance starts at the place behind the one before it. -/
def placedRing (env : Hashing) (opt : ConsistentHashOption Request) (l : Nat) :
    Int → List Instance → List (Int × VirtualNode)
  | _, [] => []
  | cur, ins :: rNodes =>
    placedNodes env l cur ins (opt.getVirtualNodeLen ins).toNat ++
      placedRing env opt l (wrapInt (cur + opt.getVirtualNodeLen ins)) rNodes

/-- The inner loop writes the nodes of one instance. -/
theorem foldlM_addVirtualNode (count : Nat) (hfits : ∀ serial ≤ count,
      ins.address.length + 1 + (Nat.digits 10 serial).length ≤ l) (ret : List VirtualNode)
    (cur : Int) : (List.range count).foldlM (addVirtualNode env l ins)
        ⟨nodeKey l ins.address 0, ret, cur⟩ =
      (setAll ret (placedNodes env l cur ins count)).map fun ret =>
        ⟨nodeKey l ins.address (count - 1), ret, cur⟩ := by
  induction count with
  | zero => rfl
  | succ count ih =>
    have hnodes : placedNodes env l cur ins (count + 1) = placedNodes env l cur ins count ++
        [(wrapInt (cur + count), ⟨env.hash (nodeKey l ins.address count), some ins⟩)] := by
      simp [placedNodes, List.range_succ]
    rw [List.range_succ, List.foldlM_append, ih fun serial hserial => hfits serial (by omega),
      hnodes, setAll_append]
    cases setAll ret (placedNodes env l cur ins count) with
    | error e => rfl
    | ok ret =>
      have hserial := setSerial_nodeKey (Nat.sub_le count 1) (hfits count (by omega))
      simp only [Except.map, bind, Except.bind, setAll, List.foldlM_cons, List.foldlM_nil,
        addVirtualNode, hserial]
      cases setAt ret (wrapInt (cur + count)) _ <;> rfl

/-- The outer loop writes the nodes of the instances one after another. -/
theorem foldlM_addInstance (hfits : ∀ ins ∈ rNodes, ∀ serial ≤ (opt.getVirtualNodeLen ins).toNat,
      ins.address.length + 1 + (Nat.digits 10 serial).length ≤ l) (hlength : b.length = l)
    (ret : List VirtualNode) (cur : Int) :
    (rNodes.foldlM (addInstance env opt l) ⟨b, ret, cur⟩).map Building.ret =
      setAll ret (placedRing env opt l cur rNodes) := by
  induction rNodes generalizing b ret cur with
  | nil => rfl
  | cons ins rNodes ih =>
    have hself := hfits ins List.mem_cons_self
    have haddress : setAddress b ins.address = .ok (nodeKey l ins.address 0) :=
      setAddress_eq hlength (by have := hself 0 (Nat.zero_le _); omega)
    rw [List.foldlM_cons, addInstance, haddress, placedRing, setAll_append]
    change Except.map _ ((List.foldlM _ _ _ >>= _) >>= _) = _
    rw [foldlM_addVirtualNode _ hself]
    cases setAll ret (placedNodes env l cur ins (opt.getVirtualNodeLen ins).toNat) with
    | error e => rfl
    | ok ret =>
      exact ih (fun other hother => hfits other (List.mem_cons_of_mem _ hother))
        (length_nodeKey (hself _ (Nat.sub_le _ 1))) ret _

/-- What the loops come to. -/
theorem buildVirtualNodes_eq_setAll (env : Hashing) (opt : ConsistentHashOption Request)
    (rNodes : List Instance) : buildVirtualNodes env opt rNodes = (do
      let ret ← makeNodes (opt.totalLen rNodes)
      if opt.totalLen rNodes = 0 then return ret
      (setAll ret (placedRing env opt (opt.keyLen rNodes) 0 rNodes)).map env.sort) := by
  unfold buildVirtualNodes
  refine bind_congr fun ret => ?_
  split
  next => rfl
  next =>
    rw [← foldlM_addInstance (fun ins hins serial hserial => fits hins hserial)
      (List.length_replicate (n := opt.keyLen rNodes) (a := (0 : UInt8)))]
    dsimp only
    cases rNodes.foldlM (addInstance env opt (opt.keyLen rNodes)) _ <;> rfl

/-! ## Rings without overflow -/

def instanceNodes (env : Hashing) (l : Nat) (ins : Instance) (count : Nat) : List VirtualNode :=
  (List.range count).map fun j => ⟨env.hash (nodeKey l ins.address j), some ins⟩

/-- The virtual nodes of all instances, in the order in which they are made. -/
def ringNodes (env : Hashing) (opt : ConsistentHashOption Request) (l : Nat)
    (rNodes : List Instance) : List VirtualNode :=
  rNodes.flatMap fun ins => instanceNodes env l ins (opt.nodeCount ins)

theorem length_instanceNodes (ins : Instance) (count : Nat) :
    (instanceNodes env l ins count).length = count := by
  simp [instanceNodes]

/-- Writing a list from its first place to its last. -/
theorem setAll_zipIdx (written xs : List α) (zero : α) :
    setAll (written ++ List.replicate xs.length zero)
        ((xs.zipIdx written.length).map fun node => ((node.2 : Int), node.1)) =
      .ok (written ++ xs) := by
  induction xs generalizing written with
  | nil => rfl
  | cons x xs ih =>
    have hset : setAt (written ++ List.replicate (xs.length + 1) zero) written.length x =
        .ok ((written ++ [x]) ++ List.replicate xs.length zero) := by
      rw [setAt_eq (by simp), List.set_append_right _ _ (Nat.le_refl _), Nat.sub_self,
        List.replicate_succ, List.set_cons_zero]
      simp
    have hrest := ih (written ++ [x])
    rw [List.length_append, List.length_singleton, List.append_assoc _ [x] xs] at hrest
    rw [List.zipIdx_cons, List.map_cons, setAll, List.foldlM_cons, List.length_cons, hset]
    exact hrest

/-- Without overflow the places follow one another. -/
theorem placedRing_eq (hsized : opt.Sized rNodes) {start : Nat}
    (htotal : start + (rNodes.map opt.nodeCount).sum ≤ maxVirtualNodes) :
    placedRing env opt l start rNodes =
      ((ringNodes env opt l rNodes).zipIdx start).map fun node => ((node.2 : Int), node.1) := by
  induction rNodes generalizing start with
  | nil => rfl
  | cons ins rNodes ih =>
    rw [List.map_cons, List.sum_cons, ← Nat.add_assoc] at htotal
    have hwrap : ∀ j ≤ opt.nodeCount ins, wrapInt ((start : Int) + j) = (start + j : Nat) :=
      fun j hj => wrapInt_eq (n := start + j) (by omega)
    have hself : placedNodes env l start ins (opt.nodeCount ins) =
        ((instanceNodes env l ins (opt.nodeCount ins)).zipIdx start).map
          fun node => ((node.2 : Int), node.1) := by
      refine List.ext_getElem (by simp [placedNodes, instanceNodes]) fun j hj _ => ?_
      have hlt : j < opt.nodeCount ins := by simpa [placedNodes] using hj
      simp [placedNodes, instanceNodes, hwrap j hlt.le]
    rw [placedRing, hsized.getVirtualNodeLen List.mem_cons_self, Int.toNat_natCast, hself,
      hwrap _ (Nat.le_refl _), ih hsized.of_cons htotal]
    conv_rhs => rw [ringNodes, List.flatMap_cons, List.zipIdx_append, List.map_append,
      length_instanceNodes]
    rfl

/-- The ring holds one node for each instance and serial number. -/
theorem buildVirtualNodes_eq (hsized : opt.Sized rNodes) : buildVirtualNodes env opt rNodes =
      .ok (env.sort (ringNodes env opt (opt.keyLen rNodes) rNodes)) := by
  have hlength : (ringNodes env opt (opt.keyLen rNodes) rNodes).length =
      (rNodes.map opt.nodeCount).sum := by
    simp [ringNodes, List.length_flatMap, length_instanceNodes]
  have hmake : makeNodes (opt.totalLen rNodes) =
      .ok (List.replicate (ringNodes env opt (opt.keyLen rNodes) rNodes).length ⟨0, none⟩) := by
    rw [hsized.totalLen, makeNodes, if_pos ⟨by omega, by exact_mod_cast hsized.total⟩,
      Int.toNat_natCast, hlength]
  have hset := setAll_zipIdx [] (ringNodes env opt (opt.keyLen rNodes) rNodes) ⟨0, none⟩
  rw [List.length_nil, ← placedRing_eq hsized (by simpa using hsized.total)] at hset
  rw [buildVirtualNodes_eq_setAll, hmake]
  simp only [bind, Except.bind]
  split
  next hzero =>
    -- without virtual nodes there is nothing to sort
    have hnone : ringNodes env opt (opt.keyLen rNodes) rNodes = [] := by
      apply List.eq_nil_of_length_eq_zero
      rw [hlength]
      rw [hsized.totalLen] at hzero
      exact_mod_cast hzero
    rw [hnone, (env.perm []).eq_nil]
    rfl
  next => exact congrArg (Except.map env.sort) hset

end Kitex.LoadBalance
