import Kitex.Generic.Read

/-! # Runs of the readers

What a reader leaves of its input when it is made of two, and what a read of the wire leaves.
-/

namespace Kitex.Generic

variable {α β : Type}

theorem runIn_bind (m : In α) (f : α → In β) (input : Input) :
    runIn (m >>= f) input =
      match runIn m input with
      | (.ok a, input') => runIn (f a) input'
      | (.error e, input') => (.error e, input') := by
  simp only [runIn, ExceptT.run_bind, StateT.run_bind]
  cases hrun : (m.run.run input : Except Fail α × Input) with
  | mk result input' => cases result <;> rfl

theorem runIn_take (read : Thrift.Read α) (input : Input) :
    runIn (take read) input =
      match read input.bytes with
      | some (a, rest) => (.ok a, { input with bytes := rest })
      | none => (.error (.error .endOfInput), input) := by
  change runIn (match read input.bytes with | some (a, rest) => _ | none => _) input = _
  cases read input.bytes <;> rfl

end Kitex.Generic
