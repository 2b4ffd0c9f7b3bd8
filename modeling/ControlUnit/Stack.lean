/-!
# The stack

A stack of at most 256 bytes for return addresses and saved registers. A push onto
the full stack is dropped and a pop from the empty one gives zero; neither is an
error.

The stack also remembers the last byte it stored, which a pop does not forget.

## Main results

* `Stack.push_of_lt`, `Stack.push_of_le` — what a push does below and at the limit.
* `Stack.depth_push_le` — a push never exceeds the limit.
-/

namespace ControlUnit

/-- The number of bytes the stack can hold. -/
def stackSize : Nat := 256

/-- The contents of the stack. -/
structure Stack where
  /-- The stored bytes, the top one first. -/
  values : List UInt8 := []
  /-- The last byte stored since the stack was last emptied, or zero. -/
  lastPushed : UInt8 := 0
  deriving DecidableEq, Repr, Inhabited

namespace Stack

def empty : Stack := {}

def depth (stack : Stack) : Nat := stack.values.length

def isEmpty (stack : Stack) : Bool := stack.values.isEmpty

/-- The bytes on the stack, the bottom one first. -/
def toList (stack : Stack) : List UInt8 := stack.values.reverse

/-- The stack after a push, which the full stack drops. -/
def push (stack : Stack) (value : UInt8) : Stack :=
  if stack.depth < stackSize then ⟨value :: stack.values, value⟩ else stack

/-- The byte a pop gives, zero from the empty stack. -/
def popped (stack : Stack) : UInt8 := stack.values.headD 0

def pop (stack : Stack) : Stack := { stack with values := stack.values.tail }

def pushAll (stack : Stack) (values : List UInt8) : Stack := values.foldl push stack

/-- Pop a number of times: the bytes given, in order, and the stack that is left. -/
def popMany : Nat → Stack → List UInt8 × Stack
  | 0, stack => ([], stack)
  | count + 1, stack =>
    let (given, left) := popMany count stack.pop
    (stack.popped :: given, left)

/-- Below the limit a push stores its byte. -/
theorem push_of_lt {stack : Stack} (h : stack.depth < stackSize) (value : UInt8) :
    stack.push value = ⟨value :: stack.values, value⟩ := by
  simp [push, h]

/-- At the limit a push is dropped. -/
theorem push_of_le {stack : Stack} (h : stackSize ≤ stack.depth) (value : UInt8) :
    stack.push value = stack := by
  simp [push, Nat.not_lt.2 h]

/-- A push never exceeds the limit. -/
theorem depth_push_le {stack : Stack} (h : stack.depth ≤ stackSize) (value : UInt8) :
    (stack.push value).depth ≤ stackSize := by
  by_cases hDepth : stack.depth < stackSize
  · rw [push_of_lt hDepth]
    exact hDepth
  · rw [push_of_le (Nat.not_lt.1 hDepth)]
    exact h

end Stack

end ControlUnit
