import Mathlib.Data.List.Basic
import Mathlib.Tactic.Common

/-!
A store of cells read as a circle: blocks of cells, and the window of `n` cells
that starts at a position and goes on at the first cell after the last one.  The
end of the store is a position of its own, so a window that starts there is one
that starts at the first cell.
-/

namespace TwitchChatWorker.Lib.CircularStore

variable {α : Type*}

def readBlock (cells : List α) (at_ n : Nat) : List α :=
  (cells.drop at_).take n

def writeBlock (cells : List α) (at_ : Nat) (block : List α) : List α :=
  cells.take at_ ++ block ++ cells.drop (at_ + block.length)

/-- The `n` cells from `head` on, around the end. -/
def window (cells : List α) (head n : Nat) : List α :=
  (cells.drop head ++ cells).take n

@[simp] theorem readBlock_zero (cells : List α) (at_ : Nat) : readBlock cells at_ 0 = [] := by
  simp [readBlock]

@[simp] theorem writeBlock_nil (cells : List α) (at_ : Nat) : writeBlock cells at_ [] = cells := by
  simp [writeBlock]

@[simp] theorem window_zero (cells : List α) (head : Nat) : window cells head 0 = [] := by
  simp [window]

theorem writeBlock_length (cells block : List α) :
    writeBlock cells cells.length block = cells ++ block := by
  simp [writeBlock]

theorem readBlock_start (cells : List α) (n : Nat) : readBlock cells 0 n = cells.take n := by
  simp [readBlock]

theorem readBlock_rest {cells : List α} {at_ n : Nat} (h : cells.length ≤ at_ + n) :
    readBlock cells at_ n = cells.drop at_ :=
  List.take_of_length_le (by simp only [List.length_drop]; omega)

theorem length_readBlock {cells : List α} {at_ n : Nat} (h : at_ + n ≤ cells.length) :
    (readBlock cells at_ n).length = n := by
  simp only [readBlock, List.length_take, List.length_drop]
  omega

theorem length_writeBlock {cells block : List α} {at_ : Nat}
    (h : at_ + block.length ≤ cells.length) :
    (writeBlock cells at_ block).length = cells.length := by
  simp only [writeBlock, List.length_append, List.length_take, List.length_drop]
  omega

theorem length_window {cells : List α} {head n : Nat} (hn : n ≤ cells.length) :
    (window cells head n).length = n := by
  simp only [window, List.length_take, List.length_append, List.length_drop]
  omega

theorem getElem?_writeBlock {cells block : List α} {at_ : Nat}
    (h : at_ + block.length ≤ cells.length) (i : Nat) :
    (writeBlock cells at_ block)[i]? =
      if i < at_ then cells[i]?
      else if i < at_ + block.length then block[i - at_]? else cells[i]? := by
  have htake : (cells.take at_).length = at_ := by
    simp only [List.length_take]
    omega
  rw [writeBlock, List.append_assoc, List.getElem?_append, htake, List.getElem?_append,
    List.getElem?_take, List.getElem?_drop]
  split
  · rfl
  · split
    · rw [if_pos (by omega)]
    · rw [if_neg (by omega)]
      congr 1
      omega

theorem getElem?_window {cells : List α} {head n : Nat} (hhead : head ≤ cells.length)
    (i : Nat) :
    (window cells head n)[i]? =
      if i < n then
        if head + i < cells.length then cells[head + i]?
        else cells[head + i - cells.length]?
      else none := by
  have hdrop : (cells.drop head).length = cells.length - head := List.length_drop
  rw [window, List.getElem?_take, List.getElem?_append, hdrop, List.getElem?_drop]
  split
  · split
    · rw [if_pos (by omega)]
    · rw [if_neg (by omega)]
      congr 1
      omega
  · rfl

theorem window_eq_readBlock {cells : List α} {head n : Nat} (h : head + n ≤ cells.length) :
    window cells head n = readBlock cells head n := by
  rw [window, readBlock, List.take_append_of_le_length]
  simp only [List.length_drop]
  omega

theorem window_eq_readBlock_append {cells : List α} {head n : Nat}
    (h : cells.length ≤ head + n) :
    window cells head n =
      readBlock cells head (cells.length - head) ++
        readBlock cells 0 (n - (cells.length - head)) := by
  rw [window, readBlock, readBlock, List.take_append, List.length_drop, List.drop_zero]
  congr 1
  rw [List.take_of_length_le (by simp only [List.length_drop]; omega),
    List.take_of_length_le (by simp only [List.length_drop]; omega)]

theorem take_window {cells : List α} {head n k : Nat} (hk : k ≤ n) :
    (window cells head n).take k = window cells head k := by
  rw [window, window, List.take_take, Nat.min_eq_left hk]

theorem drop_window {cells : List α} {head n k : Nat} (h : head + k ≤ cells.length) :
    (window cells head n).drop k = window cells (head + k) (n - k) := by
  apply List.ext_getElem?
  intro i
  rw [List.getElem?_drop, getElem?_window (by omega), getElem?_window h]
  simp only [Nat.add_assoc]
  by_cases hi : k + i < n
  · rw [if_pos hi, if_pos (show i < n - k by omega)]
  · rw [if_neg hi, if_neg (by omega)]

theorem drop_window_wrapped {cells : List α} {head n k : Nat} (hhead : head ≤ cells.length)
    (h : cells.length ≤ head + k) (hn : n ≤ cells.length) (hk : k ≤ n) :
    (window cells head n).drop k = window cells (head + k - cells.length) (n - k) := by
  apply List.ext_getElem?
  intro i
  rw [List.getElem?_drop, getElem?_window hhead, getElem?_window (by omega)]
  by_cases hi : k + i < n
  · rw [if_pos hi, if_neg (by omega), if_pos (by omega), if_pos (by omega)]
    congr 1
    omega
  · rw [if_neg hi, if_neg (by omega)]

theorem window_writeBlock {cells block : List α} {head n : Nat}
    (h : head + n + block.length ≤ cells.length) :
    window (writeBlock cells (head + n) block) head (n + block.length) =
      window cells head n ++ block := by
  have hlength : (writeBlock cells (head + n) block).length = cells.length := length_writeBlock h
  apply List.ext_getElem?
  intro i
  rw [getElem?_window (by omega), getElem?_writeBlock h, List.getElem?_append,
    length_window (by omega), getElem?_window (by omega), hlength]
  by_cases hn : i < n
  · rw [if_pos (by omega), if_pos (by omega), if_pos (by omega), if_pos hn, if_pos hn,
      if_pos (by omega)]
  · rw [if_neg hn]
    by_cases hb : i < n + block.length
    · rw [if_pos hb, if_pos (by omega), if_neg (by omega), if_pos (by omega)]
      congr 1
      omega
    · rw [if_neg hb, List.getElem?_eq_none (by omega)]

theorem window_writeBlock_wrapped {cells block : List α} {head n : Nat}
    (hhead : head ≤ cells.length) (h : cells.length ≤ head + n)
    (hroom : n + block.length ≤ cells.length) :
    window (writeBlock cells (head + n - cells.length) block) head (n + block.length) =
      window cells head n ++ block := by
  have hfits : head + n - cells.length + block.length ≤ cells.length := by omega
  have hlength : (writeBlock cells (head + n - cells.length) block).length = cells.length :=
    length_writeBlock hfits
  apply List.ext_getElem?
  intro i
  rw [getElem?_window (by omega), hlength, List.getElem?_append, length_window (by omega),
    getElem?_window hhead]
  by_cases hn : i < n
  · rw [if_pos (by omega), if_pos hn, if_pos hn, getElem?_writeBlock hfits,
      getElem?_writeBlock hfits]
    by_cases hc : head + i < cells.length
    · rw [if_pos hc, if_pos hc, if_neg (by omega), if_neg (by omega)]
    · rw [if_neg hc, if_neg hc, if_pos (by omega)]
  · rw [if_neg hn]
    by_cases hb : i < n + block.length
    · rw [if_pos hb, if_neg (by omega), getElem?_writeBlock hfits, if_neg (by omega),
        if_pos (by omega)]
      congr 1
      omega
    · rw [if_neg hb, List.getElem?_eq_none (by omega)]

theorem readBlock_writeBlock {cells block : List α} {at_ : Nat}
    (h : at_ + block.length ≤ cells.length) :
    readBlock (writeBlock cells at_ block) at_ block.length = block := by
  have hfits : at_ + 0 + block.length ≤ cells.length := h
  rw [← window_eq_readBlock (by rw [length_writeBlock h]; exact h)]
  simpa using window_writeBlock hfits

end TwitchChatWorker.Lib.CircularStore
