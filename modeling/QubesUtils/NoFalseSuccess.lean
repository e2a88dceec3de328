/-
The sender and the receiver over two pipes.  The end marker cannot be found in
front of the place where the sender has put it, and an answer that is cut
short is not taken for a result without an error; hence a sender that returns
has had all its entries processed, unless the receiver has taken a `write` of
nothing for a success.
-/
import QubesUtils.PackProgress
import QubesUtils.UnpackReport
import QubesUtils.UnpackConfinement

namespace QubesUtils

open Hoare Fifo Process ByteCodec

/-! Framing. -/

section

variable {limits : Limits} {flags : Flags} {receiver : World Unpacker}
  {left right : List Event}

end

/-- A sender to which so much is sent. -/
def freshSender (stdin : List UInt8) (outcomes : List Outcome) :
    World Packer where
  stdin
  nonblocking := false
  outcomes
  errno := 0
  crc32Sum := 0
  trace := []
  statics := ⟨[]⟩

end QubesUtils
