import DpdkRouter.Basic
import DpdkRouter.Loop
import DpdkRouter.SlotBuffer

/-!
The growable array of `utils/pointer_list.c`. A `generic_ptr` to an `α` is
an `Option α`, `NULL` being `none`. `_list` is the block the list points to,
`none` when `NULL`, and a block is read as its slots; `_len` and `_cap` are
the two `unsigned int` fields, so the growth step wraps as in C. Reading or
writing slot `i` of the block with `i ≥ _cap`, or through a `NULL` block,
leaves the allocation and is `Fault.outOfBounds`.

`realloc` is a parameter: given the block, its old and its new number of
slots it returns the new block, or `none` for `NULL`. A block obtained by
`malloc(0)` is the argument of `pointerListInit`.
-/

namespace DpdkRouter.Utils

open ForLoop

/-- `struct pointer_list`. -/
structure PointerList (α : Type*) where
  list : Option (ℕ → Option α)
  len : UInt32
  cap : UInt32

variable {α : Type*}

/-- The slots the block of `self` holds; a `NULL` block holds none. -/
def PointerList.slots (self : PointerList α) : ℕ → Option α :=
  self.list.getD fun _ => none

def readSlot (self : PointerList α) (i : ℕ) : Except Fault (Option α) :=
  match self.list with
  | some b => if i < self.cap.toNat then .ok (b i) else .error .outOfBounds
  | none => .error .outOfBounds

def writeSlot (self : PointerList α) (i : ℕ) (ptr : Option α) : Except Fault (PointerList α) :=
  match self.list with
  | some b =>
    if i < self.cap.toNat then .ok { self with list := some (Function.update b i ptr) }
    else .error .outOfBounds
  | none => .error .outOfBounds

section Operations

variable (realloc : Option (ℕ → Option α) → ℕ → ℕ → Option (ℕ → Option α))

/-- `pointer_list_init`, with the block `malloc(0)` returned. -/
def pointerListInit (blk : Option (ℕ → Option α)) : PointerList α := ⟨blk, 0, 0⟩

def pointerListRealloc (self : PointerList α) (newCap : UInt32) : Except Fault (PointerList α) :=
  match realloc self.list self.cap.toNat newCap.toNat with
  | some b => .ok { self with list := some b, cap := newCap }
  | none => .error (.exit "ERROR: Unable to allocate memory!\n")

def pointerListExpand (self : PointerList α) : Except Fault (PointerList α) :=
  let newCap := self.cap + self.cap / 2 + 1
  if newCap ≤ self.cap then .error (.exit "ERROR: Pointer list cannot grow larger!\n")
  else pointerListRealloc realloc self newCap

def pointerListContractedCap (self : PointerList α) : UInt32 :=
  if self.cap ≤ 0 then 0
  else if self.cap < 3 then self.cap - 1
  else self.cap - self.cap / 3

def pointerListContract (self : PointerList α) (minCap : UInt32) : Except Fault (PointerList α) :=
  let newCap := pointerListContractedCap self
  let newCap := if newCap < minCap then minCap else newCap
  if newCap ≥ self.cap then .ok self
  else pointerListRealloc realloc self newCap

def pointerListAppend (self : PointerList α) (ptr : Option α) : Except Fault (PointerList α) := do
  let self ← if self.len ≥ self.cap then pointerListExpand realloc self else pure self
  let self ← writeSlot self self.len.toNat ptr
  pure { self with len := self.len + 1 }

/-- The body of the loop of `pointer_list_remove`: slot `i` takes slot `i + 1`. -/
def removeStep (i : ℕ) (self : PointerList α) : Except Fault (PointerList α) := do
  writeSlot self i (← readSlot self (i + 1))

def pointerListRemove (self : PointerList α) (index : UInt32) : Except Fault (PointerList α) :=
  if index ≥ self.len then .ok self
  else do
    let self ← forRange removeStep index.toNat ((self.len - 1).toNat - index.toNat) self
    let self := { self with len := self.len - 1 }
    if self.len ≤ pointerListContractedCap self then pointerListContract realloc self 0
    else pure self

def pointerListPop (self : PointerList α) : Except Fault (PointerList α × Option α) :=
  if self.len ≤ 0 then .ok (self, none)
  else do
    let last ← readSlot self (self.len - 1).toNat
    let self ← pointerListRemove realloc self (self.len - 1)
    pure (self, last)

def pointerListGet (self : PointerList α) (index : UInt32) : Except Fault (Option α) :=
  if index ≥ self.len then .ok none else readSlot self index.toNat

def pointerListSet (self : PointerList α) (index : UInt32) (ptr : Option α) :
    Except Fault (PointerList α) :=
  if index ≥ self.len then .ok self else writeSlot self index.toNat ptr

def pointerListLen (self : PointerList α) : UInt32 := self.len

/-- The body of the loop of `pointer_list_insert`: slot `i` takes the carried
pointer `curr`, whose next value is the old slot `i`. -/
def insertStep (i : ℕ) (st : PointerList α × Option α) : Except Fault (PointerList α × Option α) := do
  let next ← readSlot st.1 i
  let self ← writeSlot st.1 i st.2
  pure (self, next)

def pointerListInsert (self : PointerList α) (ptr : Option α) (pos : UInt32) :
    Except Fault (PointerList α) :=
  if pos > pointerListLen self then .ok self
  else do
    let self ← pointerListAppend realloc self none
    let sz := pointerListLen self
    let st ← forRange insertStep pos.toNat (sz.toNat - pos.toNat) (self, ptr)
    pure st.1

/-- `pointer_list_clear`; `free` is not modelled beyond the `NULL` it leaves. -/
def pointerListClear (self : PointerList α) : PointerList α :=
  if self.list.isNone then self else ⟨none, 0, 0⟩

/-- A call of the `pointer_list.h` interface on one list. -/
inductive Op (α : Type*)
  | append (ptr : Option α)
  | insert (ptr : Option α) (pos : UInt32)
  | remove (index : UInt32)
  | pop
  | get (index : UInt32)
  | set (index : UInt32) (ptr : Option α)
  | clear

/-- One call: the list afterwards and the pointer the call returns, `NULL`
for a `void` call. -/
def Op.exec (self : PointerList α) : Op α → Except Fault (PointerList α × Option α)
  | .append ptr => return (← pointerListAppend realloc self ptr, none)
  | .insert ptr pos => return (← pointerListInsert realloc self ptr pos, none)
  | .remove index => return (← pointerListRemove realloc self index, none)
  | .pop => pointerListPop realloc self
  | .get index => return (self, ← pointerListGet self index)
  | .set index ptr => return (← pointerListSet self index ptr, none)
  | .clear => .ok (pointerListClear self, none)

/-- Calls made one after another, with the pointers they return in order. -/
def execOps (self : PointerList α) : List (Op α) → Except Fault (PointerList α × List (Option α))
  | [] => .ok (self, [])
  | op :: ops => do
    let r ← op.exec realloc self
    let rs ← execOps r.1 ops
    return (rs.1, r.2 :: rs.2)

end Operations

end DpdkRouter.Utils
