import Mathlib.Algebra.Group.Nat.Defs
import TwitchChatWorker.Lib.CircularStore

/-!
The static ring buffer (`common/BufferStatic.h`).  The capacity is the template
parameter; its `static_assert` keeps it below 102400, so that no sum of a
position and an accepted length wraps in 32 bits.  Every `memcpy` is recorded
with its two ranges and copies the source as it was before the call.
-/

namespace TwitchChatWorker.ByteBuffer

open TwitchChatWorker.Lib.CircularStore

/-- `CommandResult`. -/
inductive Result where
  | ok
  | noData
  | bufferFull
  | invalidLen
  | invalidUsage
  deriving DecidableEq, Repr

/-- The arrays a call works on: the internal one, the source and the target that
the caller passes, and the temporary of `normilize`. -/
inductive Region where
  | buffer
  | data
  | out
  | temp
  deriving DecidableEq, Repr

structure Memcpy where
  dst : Region
  dstAt : Nat
  src : Region
  srcAt : Nat
  len : Nat
  deriving DecidableEq, Repr

/-- The buffer, the bytes of the caller and the temporary copy, with the calls of
`memcpy` so far. -/
structure Memory where
  buffer : List UInt8
  data : List UInt8 := []
  out : List UInt8 := []
  temp : List UInt8 := []
  copies : List Memcpy := []

namespace Memory

def cells (memory : Memory) : Region → List UInt8
  | .buffer => memory.buffer
  | .data => memory.data
  | .out => memory.out
  | .temp => memory.temp

def store (memory : Memory) (region : Region) (cells : List UInt8) : Memory :=
  match region with
  | .buffer => { memory with buffer := cells }
  | .data => { memory with data := cells }
  | .out => { memory with out := cells }
  | .temp => { memory with temp := cells }

/-- What a legal call of `memcpy` does. -/
def memcpy (memory : Memory) (copy : Memcpy) : Memory :=
  let block := readBlock (memory.cells copy.src) copy.srcAt copy.len
  let memory := memory.store copy.dst (writeBlock (memory.cells copy.dst) copy.dstAt block)
  { memory with copies := memory.copies ++ [copy] }

theorem memcpy_buffer (memory : Memory) (copy : Memcpy) :
    (memory.memcpy copy).buffer =
      if copy.dst = .buffer then
        writeBlock memory.buffer copy.dstAt
          (readBlock (memory.cells copy.src) copy.srcAt copy.len)
      else memory.buffer := by
  rcases copy with ⟨dst, _, _, _, _⟩
  cases dst <;> rfl

theorem memcpy_out (memory : Memory) (copy : Memcpy) :
    (memory.memcpy copy).out =
      if copy.dst = .out then
        writeBlock memory.out copy.dstAt
          (readBlock (memory.cells copy.src) copy.srcAt copy.len)
      else memory.out := by
  rcases copy with ⟨dst, _, _, _, _⟩
  cases dst <;> rfl

theorem memcpy_temp (memory : Memory) (copy : Memcpy) :
    (memory.memcpy copy).temp =
      if copy.dst = .temp then
        writeBlock memory.temp copy.dstAt
          (readBlock (memory.cells copy.src) copy.srcAt copy.len)
      else memory.temp := by
  rcases copy with ⟨dst, _, _, _, _⟩
  cases dst <;> rfl

theorem memcpy_data {memory : Memory} {copy : Memcpy} (h : copy.dst ≠ .data) :
    (memory.memcpy copy).data = memory.data := by
  rcases copy with ⟨dst, _, _, _, _⟩
  cases dst with
  | data => exact absurd rfl h
  | buffer => rfl
  | out => rfl
  | temp => rfl

theorem memcpy_copies (memory : Memory) (copy : Memcpy) :
    (memory.memcpy copy).copies = memory.copies ++ [copy] := by
  rcases copy with ⟨dst, _, _, _, _⟩
  cases dst <;> rfl

end Memory

structure BufferStatic (C : Nat) where
  buffer : List UInt8
  size : Nat
  head : Nat
  tail : Nat
  deriving DecidableEq, Repr

/-- What a call answers, what it has written to the caller's target, and the
buffer it leaves. -/
structure Outcome (C : Nat) where
  result : Option Result := none
  out : List UInt8 := []
  copies : List Memcpy := []
  next : BufferStatic C

variable {C : Nat}

namespace BufferStatic

def empty : BufferStatic C where
  buffer := List.replicate C 0
  size := 0
  head := 0
  tail := 0

/-- A call that returns an error leaves the buffer as it is. -/
def fails (b : BufferStatic C) (result : Result) : Outcome C where
  result := some result
  next := b

def done (result : Option Result) (memory : Memory) (size head tail : Nat) : Outcome C where
  result := result
  out := memory.out
  copies := memory.copies
  next := { buffer := memory.buffer, size, head, tail }

def append (b : BufferStatic C) (data : List UInt8) : Outcome C :=
  let len := data.length
  let memory : Memory := { buffer := b.buffer, data }
  if C < len then b.fails .invalidLen
  else if C = b.size then b.fails .bufferFull
  else if b.head ≤ b.tail then
    if b.tail + len ≤ C then
      done (some .ok) (memory.memcpy ⟨.buffer, b.tail, .data, 0, len⟩)
        (b.size + len) b.head (b.tail + len)
    -- the data is split and goes on at the beginning of the buffer
    else if 0 < b.tail ∧ len - (C - b.tail) ≤ b.head then
      let firstBlockLen := C - b.tail
      let memory :=
        if 0 < firstBlockLen then
          memory.memcpy ⟨.buffer, b.tail, .data, 0, firstBlockLen⟩
        else memory
      let secondBlockLen := len - firstBlockLen
      done (some .ok) (memory.memcpy ⟨.buffer, 0, .data, firstBlockLen, secondBlockLen⟩)
        (b.size + len) b.head secondBlockLen
    else b.fails .bufferFull
  else if len ≤ b.head - b.tail then
    done (some .ok) (memory.memcpy ⟨.buffer, b.tail, .data, 0, len⟩)
      (b.size + len) b.head (b.tail + len)
  else b.fails .bufferFull

def validateBuffer (b : BufferStatic C) (len : Nat) : Result :=
  if b.size = 0 then .noData
  else if b.size < len then .invalidLen
  else .ok

/-- The private `getData`.  `out` says whether the caller passed a target; only
the first branch tests it. -/
def getDataFrom (b : BufferStatic C) (out : Bool) (len : Nat) (peek moveHeadOnly : Bool) :
    Outcome C :=
  let memory : Memory := { buffer := b.buffer }
  let size := if peek then b.size else b.size - len
  if peek && moveHeadOnly then b.fails .invalidUsage
  else if b.validateBuffer len ≠ .ok then b.fails (b.validateBuffer len)
  else if b.head < b.tail then
    if b.head + len ≤ b.tail then
      let memory :=
        if !moveHeadOnly && out then memory.memcpy ⟨.out, 0, .buffer, b.head, len⟩ else memory
      done (some .ok) memory size (if peek then b.head else b.head + len) b.tail
    else b.fails .invalidLen
  else if b.head + len ≤ C then
    let memory :=
      if !moveHeadOnly then memory.memcpy ⟨.out, 0, .buffer, b.head, len⟩ else memory
    done (some .ok) memory size (if peek then b.head else b.head + len) b.tail
  else
    let firstBlockLen := C - b.head
    let secondBlockLen := len - firstBlockLen
    if 0 < b.tail ∧ secondBlockLen ≤ b.tail then
      let memory :=
        if !moveHeadOnly then
          (memory.memcpy ⟨.out, 0, .buffer, b.head, firstBlockLen⟩).memcpy
            ⟨.out, firstBlockLen, .buffer, 0, secondBlockLen⟩
        else memory
      done (some .ok) memory size (if peek then b.head else secondBlockLen) b.tail
    else b.fails .invalidLen

def getData (b : BufferStatic C) (len : Nat) : Outcome C :=
  b.getDataFrom true len false false

def peekData (b : BufferStatic C) (len : Nat) : Outcome C :=
  b.getDataFrom true len true false

def seekData (b : BufferStatic C) (len : Nat) : Outcome C :=
  b.getDataFrom false len false true

def getSize (b : BufferStatic C) : Nat :=
  b.size

/-- The free bytes before and behind the data. -/
def getTotalFreeSpace (b : BufferStatic C) : Nat :=
  C - b.size

/-- The position of the pointer, counted from `buffer`, and the buffer left. -/
def getLinearAppendPtr (b : BufferStatic C) : Nat × BufferStatic C :=
  let b := if b.tail = C ∧ C ≠ b.size then { b with tail := 0 } else b
  (b.tail, b)

def getLinearFreeSpace (b : BufferStatic C) : Nat :=
  if b.tail = C then b.getTotalFreeSpace
  else if b.head < b.tail then C - b.tail
  else if b.tail < b.head then b.head - b.tail
  else C - b.tail

/-- The sums are of `unsigned int`. -/
def expandSize (b : BufferStatic C) (len : Nat) : Result × BufferStatic C :=
  if C < (b.size + len) % 2 ^ 32 then (.invalidLen, b)
  else (.ok, { b with tail := (b.tail + len) % 2 ^ 32, size := (b.size + len) % 2 ^ 32 })

/-- Moves the data to the beginning of the buffer. -/
def normilize (b : BufferStatic C) : Outcome C :=
  let memory : Memory := { buffer := b.buffer }
  if b.head = 0 then { next := b }
  else if b.size = 0 then done none memory b.size 0 b.size
  else if b.tail = 0 ∨ b.head < b.tail then
    done none (memory.memcpy ⟨.buffer, 0, .buffer, b.head, b.size⟩) b.size 0 b.size
  else
    let firstBlockLen := C - b.head
    let secondBlockLen := b.size - firstBlockLen
    let memory := memory.memcpy ⟨.temp, 0, .buffer, 0, secondBlockLen⟩
    let memory := memory.memcpy ⟨.buffer, 0, .buffer, b.head, firstBlockLen⟩
    let memory := memory.memcpy ⟨.buffer, firstBlockLen, .temp, 0, secondBlockLen⟩
    done none memory b.size 0 b.size

def clear (b : BufferStatic C) : BufferStatic C :=
  { b with size := 0, head := 0, tail := 0 }

end BufferStatic

/-- The calls with their arguments. -/
inductive Call where
  | append (data : List UInt8)
  | getData (len : Nat)
  | peekData (len : Nat)
  | seekData (len : Nat)
  | normilize
  | clear
  | getLinearAppendPtr
  deriving DecidableEq, Repr

def BufferStatic.call (b : BufferStatic C) : Call → Outcome C
  | .append data => b.append data
  | .getData len => b.getData len
  | .peekData len => b.peekData len
  | .seekData len => b.seekData len
  | .normilize => b.normilize
  | .clear => { next := b.clear }
  | .getLinearAppendPtr => { next := b.getLinearAppendPtr.2 }

/-- The buffer after a sequence of calls on the empty one. -/
def run (C : Nat) (calls : List Call) : BufferStatic C :=
  calls.foldl (fun b call => (b.call call).next) .empty

theorem run_snoc (calls : List Call) (call : Call) :
    run C (calls ++ [call]) = ((run C calls).call call).next := by
  simp [run]

end TwitchChatWorker.ByteBuffer
