import Mathlib.Data.Nat.Digits.Defs
import Mathlib.Data.List.AList
import Kitex.Container.HashRing
import Kitex.LoadBalance.Discovery

/-! # Consistent hashing

The instances of a result stand on a ring of hashes, each with a number of virtual
nodes. The key of a virtual node is the address of its instance, a `#` and the serial
number of the node, which is written from the end of a buffer that all instances
share. A request goes to the instance of the first node after the hash of its key.
Whatever panics is an error here.
-/

namespace Kitex.LoadBalance

open Kitex.Container

inductive Panic where
  | message (text : String)
  /-- `make` is called with a length that is negative or too large -/
  | makeSlice
  | index
  | nilPointer
  deriving DecidableEq, Repr

structure VirtualNode where
  hash : UInt64
  realNode : Option Instance
  deriving DecidableEq, Repr

structure ConsistInfo where
  realNodes : List Instance
  virtualNodes : List VirtualNode
  deriving DecidableEq, Repr

structure ConsistentHashOption (Request : Type) where
  getKey : Option (Request → Bytes)
  virtualFactor : UInt32
  weighted : Bool

/-- What is taken from the standard library: the hash with its seed, and a sort that
may put nodes of equal hashes in any order. -/
structure Hashing where
  hash : Bytes → UInt64
  sort : List VirtualNode → List VirtualNode
  perm : ∀ nodes, (sort nodes).Perm nodes
  sorted : ∀ nodes, (sort nodes).Pairwise fun a b => a.hash ≤ b.hash

/-! ## Slices and integers -/

/-- The value of an `int` after an operation that may overflow. -/
def wrapInt (n : Int) : Int := n.bmod (2 ^ 64)

/-- The most virtual nodes, of 16 bytes each, in an address space of `2 ^ 48` bytes. -/
def maxVirtualNodes : Nat := 2 ^ 44

def makeNodes (n : Int) : Except Panic (List VirtualNode) :=
  if 0 ≤ n ∧ n ≤ maxVirtualNodes then .ok (List.replicate n.toNat ⟨0, none⟩)
  else .error .makeSlice

/-- `xs[index] = a` -/
def setAt {α : Type} (xs : List α) (index : Int) (a : α) : Except Panic (List α) :=
  if 0 ≤ index ∧ index < xs.length then .ok (xs.set index.toNat a) else .error .index

/-- `copy(dst, src)` -/
def copy (dst src : Bytes) : Bytes := src.take dst.length ++ dst.drop src.length

/-- The loop of `GetUIntLen`; the number itself is fuel enough. -/
def uintLenLoop : (fuel n cnt : Nat) → Nat
  | 0, _, cnt => cnt
  | fuel + 1, n, cnt => if 10 ≤ n then uintLenLoop fuel (n / 10) (cnt + 1) else cnt

def getUIntLen (n : Nat) : Nat := uintLenLoop n n 1

/-! ## Building the ring -/

namespace ConsistentHashOption

variable {Request : Type} (opt : ConsistentHashOption Request)

def getVirtualNodeLen (ins : Instance) : Int :=
  if opt.weighted then wrapInt (ins.weight * opt.virtualFactor.toNat)
  else opt.virtualFactor.toNat

def totalLen (rNodes : List Instance) : Int :=
  rNodes.foldl (fun total ins => wrapInt (total + opt.getVirtualNodeLen ins)) 0

def maxLen (rNodes : List Instance) : Nat :=
  rNodes.foldl (fun len ins => if len < ins.address.length then ins.address.length else len) 0

def maxSerial (rNodes : List Instance) : Int :=
  rNodes.foldl (fun serial ins =>
    if serial < opt.getVirtualNodeLen ins then opt.getVirtualNodeLen ins else serial) 0

/-- The length of the buffer for the keys. -/
def keyLen (rNodes : List Instance) : Nat :=
  maxLen rNodes + 1 + getUIntLen (opt.maxSerial rNodes).toNat

end ConsistentHashOption

/-- The address and the `#`; the rest of the buffer is cleared. -/
def setAddress (b address : Bytes) : Except Panic Bytes :=
  let b := copy b address
  let b := b.take (address.length + 1) ++ List.replicate (b.length - (address.length + 1)) 0
  setAt b address.length 35

/-- The digits of a serial number, the last one first. -/
def setSerial (l : Nat) (b : Bytes) (serial : Nat) : Except Panic Bytes :=
  (Nat.digits 10 serial).zipIdx.foldlM
    (fun b digit => setAt b ((l : Int) - 1 - digit.2) (UInt8.ofNat digit.1)) b

/-- The variables of the loops of `buildVirtualNodes`. -/
structure Building where
  b : Bytes
  ret : List VirtualNode
  cur : Int
  deriving DecidableEq, Repr

section Build

variable {Request : Type} (env : Hashing) (opt : ConsistentHashOption Request)

def addVirtualNode (l : Nat) (ins : Instance) (s : Building) (j : Nat) :
    Except Panic Building := do
  let b ← setSerial l s.b j
  let ret ← setAt s.ret (wrapInt (s.cur + j)) ⟨env.hash b, some ins⟩
  return { s with b, ret }

def addInstance (l : Nat) (s : Building) (ins : Instance) : Except Panic Building := do
  let b ← setAddress s.b ins.address
  let vLen := opt.getVirtualNodeLen ins
  let s ← (List.range vLen.toNat).foldlM (addVirtualNode env l ins) { s with b }
  return { s with cur := wrapInt (s.cur + vLen) }

def buildVirtualNodes (rNodes : List Instance) : Except Panic (List VirtualNode) := do
  let ret ← makeNodes (opt.totalLen rNodes)
  if opt.totalLen rNodes = 0 then return ret
  let l := opt.keyLen rNodes
  let s ← rNodes.foldlM (addInstance env opt l) ⟨List.replicate l 0, ret, 0⟩
  return env.sort s.ret

def newConsistInfo (e : Result) : Except Panic ConsistInfo := do
  let virtualNodes ← buildVirtualNodes env opt e.instances
  return ⟨e.instances, virtualNodes⟩

end Build

/-! ## Picking -/

/-- The primary of `buildConsistResult`. -/
def buildConsistResult (info : ConsistInfo) (key : UInt64) : Except Panic Instance :=
  match info.virtualNodes[Ring.successor (·.hash.toNat) info.virtualNodes key.toNat]? with
  | none => .error .index
  | some node => node.realNode.elim (.error .nilPointer) .ok

/-- `Next` of a picker with the key of the request. -/
def pickerNext (env : Hashing) (info : ConsistInfo) (key : Bytes) :
    Except Panic (Option Instance) :=
  if info.realNodes = [] then .ok none
  else if key = [] then .ok none
  else some <$> buildConsistResult info (env.hash key)

/-- The instance that is chosen from a list. -/
def primary {Request : Type} (env : Hashing) (opt : ConsistentHashOption Request)
    (rNodes : List Instance) (key : Bytes) : Except Panic (Option Instance) := do
  let virtualNodes ← buildVirtualNodes env opt rNodes
  pickerNext env ⟨rNodes, virtualNodes⟩ key

/-! ## The balancer and its cache -/

structure ConsistBalancer (Request : Type) where
  opt : ConsistentHashOption Request
  getKey : Request → Bytes
  cachedConsistInfo : AList fun _ : String => ConsistInfo

inductive ConsistOp (Request : Type) where
  /-- `GetPicker`, and `Next` on the picker -/
  | pick (e : Result) (request : Request)
  | rebalance (e : Result)
  | delete (e : Result)

/-- What a picker for a result was built from, and what it has returned for a key. -/
structure Picked where
  e : Result
  realNodes : List Instance
  key : Bytes
  ins : Option Instance
  deriving DecidableEq, Repr

namespace ConsistBalancer

variable {Request : Type} (env : Hashing)

def newConsistBalancer (opt : ConsistentHashOption Request) :
    Except Panic (ConsistBalancer Request) :=
  match opt.getKey with
  | none => .error (.message
      "loadbalancer: new consistBalancer failed, getKey func cannot be nil")
  | some getKey =>
    if opt.virtualFactor = 0 then .error (.message
      "loadbalancer: new consistBalancer failed, virtual factor must > 0")
    else .ok ⟨opt, getKey, ∅⟩

def setInfo (cb : ConsistBalancer Request) (cacheKey : String) (info : ConsistInfo) :
    ConsistBalancer Request :=
  { cb with cachedConsistInfo := cb.cachedConsistInfo.insert cacheKey info }

def getPicker (cb : ConsistBalancer Request) (e : Result) :
    Except Panic (ConsistBalancer Request × ConsistInfo) :=
  if e.cacheable then
    match cb.cachedConsistInfo.lookup e.cacheKey with
    | some info => .ok (cb, info)
    | none => do
        let info ← newConsistInfo env cb.opt e
        return (cb.setInfo e.cacheKey info, info)
  else do
    let info ← newConsistInfo env cb.opt e
    return (cb, info)

def rebalance (cb : ConsistBalancer Request) (e : Result) :
    Except Panic (ConsistBalancer Request) :=
  if e.cacheable then do
    let info ← newConsistInfo env cb.opt e
    return cb.setInfo e.cacheKey info
  else .ok cb

def delete (cb : ConsistBalancer Request) (e : Result) : ConsistBalancer Request :=
  if e.cacheable then
    { cb with cachedConsistInfo := cb.cachedConsistInfo.erase e.cacheKey }
  else cb

/-- One operation, after those that have picked before. -/
def step (s : ConsistBalancer Request × List Picked) :
    ConsistOp Request → Except Panic (ConsistBalancer Request × List Picked)
  | .pick e request => do
      let (cb, info) ← s.1.getPicker env e
      let key := cb.getKey request
      let ins ← pickerNext env info key
      return (cb, s.2 ++ [⟨e, info.realNodes, key, ins⟩])
  | .rebalance e => do return (← s.1.rebalance env e, s.2)
  | .delete e => .ok (s.1.delete e, s.2)

/-- Build a balancer and use it. -/
def run (opt : ConsistentHashOption Request) (ops : List (ConsistOp Request)) :
    Except Panic (ConsistBalancer Request × List Picked) := do
  let cb ← newConsistBalancer opt
  ops.foldlM (step env) (cb, [])

end ConsistBalancer

end Kitex.LoadBalance
