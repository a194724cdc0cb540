import HederaSdk.Errors

/-!
# Lists with a cursor and a lock

A locked list rejects `setList` and `push`; `set` and `clear` do not look at the
lock.
-/

namespace HederaSdk

structure SdkList (T : Type) where
  list : List T := []
  locked : Bool := false
  index : Nat := 0
  deriving DecidableEq

namespace SdkList

variable {T : Type}

def setList (l : SdkList T) (list : List T) : Except JsError (SdkList T) :=
  if l.locked then .error (.error "list is locked") else .ok { l with list, index := 0 }

def push (l : SdkList T) (item : T) : Except JsError (SdkList T) :=
  if l.locked then .error (.error "list is locked") else .ok { l with list := l.list ++ [item] }

def setLocked (l : SdkList T) : SdkList T := { l with locked := true }

def clear (l : SdkList T) : SdkList T := { l with list := [], index := 0 }

def length (l : SdkList T) : Nat := l.list.length

def isEmpty (l : SdkList T) : Bool := l.list.isEmpty

def get (l : SdkList T) (index : Nat) : Option T := l.list[index]?

/-- The only index beyond the end is the one an empty list was advanced to (`NaN`
in the source); assigning there adds no element. -/
def set (l : SdkList T) (index : Nat) (item : T) : SdkList T :=
  if index = l.length then { l with list := l.list ++ [item] }
  else { l with list := l.list.set index item }

def current (l : SdkList T) : Option T := l.get l.index

/-- Advancing an empty list leaves it without a current element: `1 % 0` is 1. -/
def advance (l : SdkList T) : SdkList T := { l with index := (l.index + 1) % l.length }

section

variable (l : SdkList T)

@[simp] theorem list_setLocked : l.setLocked.list = l.list := rfl

@[simp] theorem index_setLocked : l.setLocked.index = l.index := rfl

@[simp] theorem locked_setLocked : l.setLocked.locked = true := rfl

@[simp] theorem list_clear : l.clear.list = [] := rfl

@[simp] theorem locked_clear : l.clear.locked = l.locked := rfl

@[simp] theorem list_advance : l.advance.list = l.list := rfl

@[simp] theorem locked_advance : l.advance.locked = l.locked := rfl

@[simp] theorem index_advance : l.advance.index = (l.index + 1) % l.list.length := rfl

@[simp] theorem current_setLocked : l.setLocked.current = l.current := rfl

theorem setList_of_unlocked {l : SdkList T} (unlocked : l.locked = false) (list : List T) :
    l.setList list = .ok { l with list, index := 0 } := by
  simp [setList, unlocked]

theorem push_of_unlocked {l : SdkList T} (unlocked : l.locked = false) (item : T) :
    l.push item = .ok { l with list := l.list ++ [item] } := by
  simp [push, unlocked]

theorem setList_eq_ok {l l' : SdkList T} {list : List T} (done : l.setList list = .ok l') :
    l.locked = false ∧ l' = { l with list, index := 0 } := by
  unfold setList at done
  split at done
  · cases done
  · rename_i unlocked
    exact ⟨by simpa using unlocked, by cases done; rfl⟩

/-- Setting an element within the list or at its end. -/
theorem get_set {l : SdkList T} {index : Nat} (inside : index ≤ l.list.length) (item : T) :
    (l.set index item).get index = some item := by
  unfold set get length
  split
  · rename_i last
    rw [last, List.getElem?_concat_length]
  · rename_i before
    exact List.getElem?_set_self (by omega)

@[simp] theorem index_set (l : SdkList T) (index : Nat) (item : T) : (l.set index item).index = l.index := by
  unfold set
  split <;> rfl

/-- Setting the element under the cursor. -/
theorem current_set {l : SdkList T} (inside : l.index ≤ l.list.length) (item : T) :
    (l.set l.index item).current = some item := by
  rw [current, index_set]
  exact get_set inside item

theorem length_set {l : SdkList T} {index : Nat} (inside : index ≤ l.list.length) (item : T) :
    (l.set index item).list.length = max l.list.length (index + 1) := by
  unfold set length
  split
  · rename_i last
    simp only [last, List.length_append, List.length_singleton]
    omega
  · simp only [List.length_set]
    omega

/-- An index within the list is moved within it. -/
theorem index_advance_lt (nonempty : l.list ≠ []) : l.advance.index < l.list.length :=
  Nat.mod_lt _ (List.length_pos_iff.mpr nonempty)

end

end SdkList

end HederaSdk
