import CompilerHost.Artifact
import CompilerHost.Memory

/-! # Compile results

A compile leaves its result in memory: a signed little-endian length, and behind it so many bytes
of output. A length that is not positive means that there is no output; whether that is a failure
is for the caller to say.
-/

namespace CompilerHost

/-- What a compile came to. -/
inductive Outcome where
  | payload (bytes : ByteArray)
  /-- Nothing to deliver, with the length as it was declared. -/
  | noPayload (declaredLength : Int)
deriving DecidableEq

namespace Outcome

/-- The output, if there is any. -/
def payload? : Outcome → Option ByteArray
  | .payload bytes => some bytes
  | .noPayload _ => none

/-- The declared length of a result without output. -/
def declaredLength? : Outcome → Option Int
  | .payload _ => none
  | .noPayload n => some n

end Outcome

/-- The size of the length in front of the output. -/
def lengthBytes : UInt32 := 4

/-- Reads the result at an address. An output that runs past the end of memory is refused and
never cut short. -/
def Memory.outcomeAt (m : Memory) (a : Address) : Except BadAccess Outcome := do
  let declared ← m.readWord a
  if signed declared ≤ 0 then
    pure (.noPayload (signed declared))
  else
    match a.add? lengthBytes with
    | some start => .payload <$> m.readRegion ⟨start, declared⟩
    | none => throw ⟨a.offset.toNat + lengthBytes.toNat, declared.toNat, m.size⟩

end CompilerHost
