import LiveChess.Message

/-! # Frames

What arrives over a socket and what is sent over it. -/

namespace LiveChess.Web

/-- What arrives over a socket: frames with their payload, or what takes their place when the
client breaks the rules or goes away. -/
inductive Frame where
  | text (payload : String)
  | binary (payload : String)
  | ping (payload : String)
  | pong (payload : String)
  | close (code : Option Nat)
  | fragment
  | garbled
  | hangUp
deriving DecidableEq, Repr

/-- The most bytes a frame may carry. -/
def payloadLimit : Nat := 65536

/-- The most bytes a ping or pong may carry. -/
def controlLimit : Nat := 125

/-- The codes that a close frame may give: those that the protocol defines for sending, and those
that it leaves to its users. -/
def isCloseCode (code : Nat) : Bool :=
  decide (1000 ≤ code ∧ code ≤ 1003) || decide (1007 ≤ code ∧ code ≤ 1014) ||
    decide (3000 ≤ code ∧ code ≤ 4999)

/-- The frame does not carry too many bytes, nor a code that no close frame may give. -/
def Frame.isSound : Frame → Bool
  | text payload => payload.utf8ByteSize ≤ payloadLimit
  | binary payload => payload.utf8ByteSize ≤ payloadLimit
  | ping payload => payload.utf8ByteSize ≤ controlLimit
  | pong payload => payload.utf8ByteSize ≤ controlLimit
  | close code => code.all isCloseCode
  | _ => true

/-- What is sent over a socket. -/
inductive Signal where
  | notice (n : Notice)
  | pong (payload : String)
  | close (code : Option Nat)
  | ended
deriving DecidableEq, Repr

end LiveChess.Web
