/-!
# Stores

Records under consecutive numbers. A record is added under the next number and stays under it; a
number that has not been given out yet reads as the default record.
-/

namespace ClassModel

structure Store (α : Type) where
  items : Array α

namespace Store

section

variable {α : Type}

def empty : Store α := ⟨#[]⟩

def size (s : Store α) : Nat := s.items.size

def push (s : Store α) (x : α) : Store α := ⟨s.items.push x⟩

def modify (s : Store α) (i : Nat) (f : α → α) : Store α := ⟨s.items.modify i f⟩

@[simp]
theorem size_push (s : Store α) (x : α) : (s.push x).size = s.size + 1 := by
  simp [size, push]

@[simp]
theorem size_modify (s : Store α) (i : Nat) (f : α → α) : (s.modify i f).size = s.size := by
  simp [size, modify]

end

variable {α : Type} [Inhabited α]

def get (s : Store α) (i : Nat) : α := s.items.getD i default

@[simp]
theorem get_push_self (s : Store α) (x : α) : (s.push x).get s.size = x := by
  simp [get, push, size, Array.getD]

theorem get_push_of_lt (s : Store α) (x : α) {i : Nat} (h : i < s.size) :
    (s.push x).get i = s.get i := by
  simp only [size] at h
  simp [get, push, Array.getD, h, Nat.lt_succ_of_lt h, Array.getElem_push_lt]

theorem get_modify_self (s : Store α) (f : α → α) {i : Nat} (h : i < s.size) :
    (s.modify i f).get i = f (s.get i) := by
  simp only [size] at h
  simp [get, modify, Array.getD, h, Array.getElem_modify]

theorem get_modify_of_ne (s : Store α) (f : α → α) {i j : Nat} (h : i ≠ j) :
    (s.modify i f).get j = s.get j := by
  by_cases hj : j < s.items.size
  · simp [get, modify, Array.getD, hj, Array.getElem_modify, h]
  · simp [get, modify, Array.getD, hj]

end Store

end ClassModel
