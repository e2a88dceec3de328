/-
Two parties joined by two FIFO channels.  An event of a party puts items on
the channel to the other one or takes items off the channel from it; a joint
run interleaves the two traces, and nothing is taken before it was put.
-/
import Mathlib.Data.List.Infix

namespace Fifo

universe u v

/-- What an event sends and receives. -/
structure Port (α : Type u) (β : Type v) where
  sent : α → List β
  received : α → List β

variable {α : Type u} {β : Type v}

def Port.sentBy (p : Port α β) (trace : List α) : List β :=
  trace.flatMap p.sent

def Port.receivedBy (p : Port α β) (trace : List α) : List β :=
  trace.flatMap p.received

@[simp] theorem Port.sentBy_nil (p : Port α β) : p.sentBy [] = [] :=
  rfl

@[simp] theorem Port.receivedBy_nil (p : Port α β) : p.receivedBy [] = [] :=
  rfl

@[simp] theorem Port.sentBy_append (p : Port α β) (left right : List α) :
    p.sentBy (left ++ right) = p.sentBy left ++ p.sentBy right :=
  List.flatMap_append

@[simp] theorem Port.receivedBy_append (p : Port α β) (left right : List α) :
    p.receivedBy (left ++ right) = p.receivedBy left ++ p.receivedBy right :=
  List.flatMap_append

variable {p : Port α β} {left right : List α}

end Fifo
