import ControlUnit.Stack
import Mathlib.Data.List.Induction

/-!
# The history of a stack

The stack is a list with a limit at either end.  Of values pushed one after another it stores as
many as it has room for and drops the rest, and pops take off what lies on top, until nothing does
and they give zeros.

The last byte stored is kept apart from the contents.  It is found in the history of the stack, in
which every operation stands next to the stack that it came upon: going back from the end, the first
push that found room, unless a reset comes before it.  Pops and dropped pushes do not count.

## Main results

* `Stack.pushAll_eq`, `Stack.popMany_eq` — what pushes and pops make of the contents.
* `Stack.lastPushed_performAll` — the last byte stored is the one that the history tells.
* `Stack.lifo_saturating` — both for every stack that operations lead to.
-/

namespace ControlUnit.Stack

/-! ## Contents -/

variable {stack : Stack}

theorem length_toList (stack : Stack) : stack.toList.length = stack.depth :=
  List.length_reverse

/-- The values that are stored when all of them are pushed: as many as there is room for. -/
def admitted (stack : Stack) (values : List UInt8) : List UInt8 :=
  values.take (min values.length (256 - stack.depth))

theorem admitted_of_le (h : stackSize ≤ stack.depth) (values : List UInt8) :
    stack.admitted values = [] := by
  have hFull : 256 ≤ stack.depth := h
  have hRoom : min values.length (256 - stack.depth) = 0 := by omega
  rw [admitted, hRoom, List.take_zero]

theorem admitted_cons_of_lt (h : stack.depth < stackSize) (value : UInt8) (rest : List UInt8) :
    stack.admitted (value :: rest) = value :: (stack.push value).admitted rest := by
  have hSmall : stack.depth < 256 := h
  have hDepth : (stack.push value).depth = stack.depth + 1 := by
    rw [push_of_lt h]
    rfl
  have hRoom : min (value :: rest).length (256 - stack.depth)
      = min rest.length (256 - (stack.depth + 1)) + 1 := by
    rw [List.length_cons]
    omega
  rw [admitted, hRoom, List.take_succ_cons, admitted, hDepth]

/-- Pushes store what there is room for, on top of what is there, and drop the rest. -/
theorem pushAll_eq (stack : Stack) (values : List UInt8) :
    stack.pushAll values
      = ⟨(stack.admitted values).reverse ++ stack.values,
          (stack.admitted values).getLastD stack.lastPushed⟩ := by
  induction values generalizing stack with
  | nil => simp [pushAll, admitted]
  | cons value rest ih =>
      have hNext : stack.pushAll (value :: rest) = (stack.push value).pushAll rest := rfl
      rw [hNext, ih]
      by_cases hDepth : stack.depth < stackSize
      · rw [admitted_cons_of_lt hDepth, push_of_lt hDepth, List.reverse_cons, List.append_assoc,
          List.singleton_append, List.getLastD_cons]
      · have hFull : stackSize ≤ stack.depth := Nat.not_lt.1 hDepth
        rw [push_of_le hFull, admitted_of_le hFull, admitted_of_le hFull]

theorem toList_pushAll (stack : Stack) (values : List UInt8) :
    (stack.pushAll values).toList = stack.toList ++ stack.admitted values := by
  rw [pushAll_eq, toList, toList, List.reverse_append, List.reverse_reverse]

/-- Pops give the bytes from the top down and then zeros, and touch nothing else. -/
theorem popMany_eq (count : Nat) (stack : Stack) :
    popMany count stack
      = (stack.values.take count ++ List.replicate (count - stack.depth) 0,
          { stack with values := stack.values.drop count }) := by
  induction count generalizing stack with
  | zero => simp [popMany]
  | succ count ih =>
      rw [popMany, ih]
      obtain ⟨values, lastPushed⟩ := stack
      cases values with
      | nil => simp [pop, popped, depth, List.replicate_succ]
      | cons first rest => simp [pop, popped, depth]

/-! ## Operations -/

/-- What can be done to a stack. -/
inductive Operation where
  | push (value : UInt8)
  | pop
  | reset
  deriving DecidableEq, Repr

def perform (stack : Stack) : Operation → Stack
  | .push value => stack.push value
  | .pop => stack.pop
  | .reset => empty

def performAll (stack : Stack) (operations : List Operation) : Stack :=
  operations.foldl perform stack

/-- The byte that an operation stores on the stack that it comes upon. -/
def Operation.stored? (found : Stack) : Operation → Option UInt8
  | .push value => if found.depth < 256 then some value else none
  | .pop => none
  | .reset => none

/-- Operations, each with the stack that it comes upon. -/
def history (stack : Stack) : List Operation → List (Stack × Operation)
  | [] => []
  | operation :: rest => (stack, operation) :: history (stack.perform operation) rest

/-- The byte stored last in a history since the last reset in it. -/
def lastStored (entries : List (Stack × Operation)) : Option UInt8 :=
  (entries.reverse.takeWhile fun entry => entry.2 != .reset).findSome? fun entry =>
    entry.2.stored? entry.1

theorem performAll_concat (stack : Stack) (operations : List Operation) (last : Operation) :
    stack.performAll (operations ++ [last]) = (stack.performAll operations).perform last := by
  rw [performAll, List.foldl_append]
  rfl

theorem history_concat (stack : Stack) (operations : List Operation) (last : Operation) :
    stack.history (operations ++ [last])
      = stack.history operations ++ [(stack.performAll operations, last)] := by
  induction operations generalizing stack with
  | nil => rfl
  | cons first rest ih =>
      show (stack, first) :: (stack.perform first).history (rest ++ [last]) = _
      rw [ih]
      rfl

theorem lastStored_concat (entries : List (Stack × Operation)) (found : Stack)
    (last : Operation) :
    lastStored (entries ++ [(found, last)])
      = if last = .reset then none else (last.stored? found).or (lastStored entries) := by
  rw [lastStored, List.reverse_append, List.reverse_singleton, List.singleton_append,
    List.takeWhile_cons]
  by_cases hReset : last = .reset
  · simp [hReset]
  · simp only [bne_iff_ne, ne_eq, hReset, not_false_eq_true, if_true, if_false, List.findSome?_cons]
    cases last.stored? found with
    | none => rfl
    | some value => rfl

/-- No operation exceeds the limit. -/
theorem depth_perform_le (h : stack.depth ≤ stackSize) (operation : Operation) :
    (stack.perform operation).depth ≤ stackSize := by
  cases operation with
  | push value => exact depth_push_le h value
  | pop =>
      have hTail : (stack.perform .pop).depth = stack.depth - 1 := List.length_tail
      omega
  | reset => exact Nat.zero_le stackSize

/-- What an operation does to the last byte stored. -/
theorem lastPushed_perform (stack : Stack) (operation : Operation) :
    (stack.perform operation).lastPushed
      = if operation = .reset then 0 else (operation.stored? stack).getD stack.lastPushed := by
  cases operation with
  | push value =>
      by_cases hDepth : stack.depth < 256
      · simp [perform, push_of_lt hDepth, Operation.stored?, hDepth]
      · simp [perform, push_of_le (Nat.not_lt.1 hDepth), Operation.stored?, hDepth]
  | pop => rfl
  | reset => rfl

theorem depth_performAll_le (operations : List Operation) :
    (empty.performAll operations).depth ≤ stackSize := by
  induction operations using List.reverseRecOn with
  | nil => exact Nat.zero_le stackSize
  | append_singleton operations last ih =>
      rw [performAll_concat]
      exact depth_perform_le ih last

/-- The last byte stored is the one that the history of the stack tells, or zero. -/
theorem lastPushed_performAll (operations : List Operation) :
    (empty.performAll operations).lastPushed = (lastStored (empty.history operations)).getD 0 := by
  induction operations using List.reverseRecOn with
  | nil => rfl
  | append_singleton operations last ih =>
      rw [performAll_concat, lastPushed_perform, history_concat, lastStored_concat, ih]
      by_cases hReset : last = .reset
      · rw [if_pos hReset, if_pos hReset]
        rfl
      · rw [if_neg hReset, if_neg hReset, Option.getD_or]

/-! ## Pushes and pops -/

/-- What becomes of a stack on which values are pushed and which is then popped a number of times,
with its contents from the bottom up. -/
structure Saturates (stack : Stack) (values : List UInt8) (count : Nat) : Prop where
  stored : (stack.pushAll values).toList = stack.toList ++ stack.admitted values
  /-- The bytes come back last in, first out, and behind them zeros. -/
  given : (popMany count (stack.pushAll values)).1
    = (stack.toList ++ stack.admitted values).reverse.take count
        ++ List.replicate (count - (stack.depth + (stack.admitted values).length)) 0
  left : (popMany count (stack.pushAll values)).2.toList
    = (stack.toList ++ stack.admitted values).take
        (stack.depth + (stack.admitted values).length - count)
  lastPushed : (popMany count (stack.pushAll values)).2.lastPushed
    = (stack.admitted values).getLastD stack.lastPushed

theorem saturates (stack : Stack) (values : List UInt8) (count : Nat) :
    stack.Saturates values count := by
  have hContents := toList_pushAll stack values
  have hValues : (stack.pushAll values).values
      = (stack.toList ++ stack.admitted values).reverse := by
    rw [← hContents]
    exact (List.reverse_reverse _).symm
  have hDepth : (stack.pushAll values).depth
      = stack.depth + (stack.admitted values).length := by
    rw [← length_toList, hContents, List.length_append, length_toList]
  refine ⟨hContents, ?_, ?_, ?_⟩
  · rw [popMany_eq, hValues, hDepth]
  · rw [popMany_eq, ← hDepth, ← length_toList, hContents]
    show ((stack.pushAll values).values.drop count).reverse = _
    rw [hValues, List.drop_reverse, List.reverse_reverse]
  · rw [popMany_eq, pushAll_eq]

/-- **Last in, first out, within limits.**  A stack that any operations lead to holds at most 256
bytes, and remembers the last byte that a push has stored since the last reset.  Values pushed on it
are stored as far as there is room; pops give them back from the top down, then zeros, and leave
what lies below. -/
theorem lifo_saturating (operations : List Operation) (values : List UInt8) (count : Nat) :
    (empty.performAll operations).depth ≤ 256 ∧
      (empty.performAll operations).lastPushed
        = (lastStored (empty.history operations)).getD 0 ∧
      (empty.performAll operations).Saturates values count :=
  ⟨depth_performAll_le operations, lastPushed_performAll operations, saturates _ values count⟩

end ControlUnit.Stack
