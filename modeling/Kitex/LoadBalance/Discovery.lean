/-! # Results of discovery

What the balancers read of the instances that a resolver has found.
-/

namespace Kitex.LoadBalance

/-- The bytes of a string. -/
abbrev Bytes := List UInt8

structure Instance where
  /-- tells apart the objects with the same address and weight -/
  object : Nat
  /-- `Address().String()` -/
  address : Bytes
  weight : Int
  deriving DecidableEq, Repr

structure Result where
  cacheable : Bool
  cacheKey : String
  instances : List Instance
  deriving DecidableEq, Repr

end Kitex.LoadBalance
