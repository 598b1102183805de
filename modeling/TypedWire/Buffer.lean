import TypedWire.Kind

/-!
# Buffers

A row whose length is not known while it is read. It has a slot for more elements than it holds so far;
when the slots are used up their number is doubled, and what remains unused is cut off at the end.

The main statement is `toList_push`: an element is added at the end and nothing else changes, whether the
slots had to be doubled or not.
-/

namespace TypedWire

/-- A row of slots, of which the first are filled. -/
structure Buffer (α : Type) where
  slots : Array α
  filled : Nat
  filled_le : filled ≤ slots.size
  slots_pos : 0 < slots.size

namespace Buffer
variable {α : Type}

def ofCapacity (capacity : Nat) (pos : 0 < capacity) (blank : α) : Buffer α where
  slots := Array.replicate capacity blank
  filled := 0
  filled_le := Nat.zero_le _
  slots_pos := by simpa using pos

/-- Twice the slots, the new ones blank. -/
def double (blank : α) (b : Buffer α) : Buffer α where
  slots := b.slots ++ Array.replicate b.slots.size blank
  filled := b.filled
  filled_le := by
    have := b.filled_le
    simp only [Array.size_append, Array.size_replicate]
    omega
  slots_pos := by
    have := b.slots_pos
    simp only [Array.size_append, Array.size_replicate]
    omega

/-- Fills the next slot, which has to be there. -/
def fill (x : α) (b : Buffer α) (free : b.filled < b.slots.size) : Buffer α where
  slots := b.slots.set b.filled x free
  filled := b.filled + 1
  filled_le := by
    simp only [Array.size_set]
    omega
  slots_pos := by
    have := b.slots_pos
    simpa only [Array.size_set] using this

theorem filled_lt_double (blank : α) {b : Buffer α} (full : ¬ b.filled < b.slots.size) :
    (b.double blank).filled < (b.double blank).slots.size := by
  have := b.filled_le
  have := b.slots_pos
  simp only [double, Array.size_append, Array.size_replicate]
  omega

/-- Adds an element at the end, in twice the slots if all are filled. -/
def push (blank x : α) (b : Buffer α) : Buffer α :=
  if free : b.filled < b.slots.size then b.fill x free
  else (b.double blank).fill x (filled_lt_double blank free)

/-- The elements, without the slots that are left. -/
def toList (b : Buffer α) : List α :=
  b.slots.toList.take b.filled

@[simp] theorem toList_ofCapacity (capacity : Nat) (pos : 0 < capacity) (blank : α) :
    (ofCapacity capacity pos blank).toList = [] := by
  simp [ofCapacity, toList]

@[simp] theorem toList_double (blank : α) (b : Buffer α) : (b.double blank).toList = b.toList := by
  have := b.filled_le
  simp only [double, toList, Array.toList_append]
  exact List.take_append_of_le_length (by simpa using this)

@[simp] theorem toList_fill (x : α) (b : Buffer α) (free : b.filled < b.slots.size) :
    (b.fill x free).toList = b.toList ++ [x] := by
  have room : b.filled < b.slots.toList.length := by simpa using free
  simp only [fill, toList, Array.toList_set]
  rw [List.take_succ_eq_append_getElem (by simpa using room), List.take_set,
    List.set_eq_of_length_le (by simp only [List.length_take]; omega), List.getElem_set_self]

@[simp] theorem toList_push (blank x : α) (b : Buffer α) :
    (b.push blank x).toList = b.toList ++ [x] := by
  unfold push
  split <;> simp

end Buffer

/-- The slots that a row of scalars begins with: more for the two kinds that texts are made of. -/
def Kind.rowCapacity : Kind → Nat
  | .byte | .char => 100
  | _ => 50

theorem Kind.rowCapacity_pos (k : Kind) : 0 < k.rowCapacity := by
  cases k <;> decide

end TypedWire
