import BleRepeater.Library.Run

/-!
# A bounded queue that drops its oldest items

The abstract purpose of a ring buffer: a first-in-first-out queue that never
refuses a write, but forgets its oldest items when the capacity is exceeded.
-/

namespace BleRepeater.BoundedQueue

variable {α : Type}

/-- The last `capacity` items. -/
def keepLast (capacity : Nat) (items : List α) : List α :=
  items.drop (items.length - capacity)

@[simp] theorem length_keepLast (capacity : Nat) (items : List α) :
    (keepLast capacity items).length = min capacity items.length := by
  simp only [keepLast, List.length_drop]
  omega

theorem keepLast_of_length_le {capacity : Nat} {items : List α}
    (fits : items.length ≤ capacity) : keepLast capacity items = items := by
  have nothing : items.length - capacity = 0 := by omega
  simp [keepLast, nothing]

/-- What is forgotten early is not missed later. -/
theorem keepLast_append (capacity : Nat) (items more : List α) :
    keepLast capacity (keepLast capacity items ++ more) =
      keepLast capacity (items ++ more) := by
  by_cases fits : items.length ≤ capacity
  · rw [keepLast_of_length_le fits]
  · have early : items.length - capacity ≤ items.length := Nat.sub_le ..
    simp only [keepLast, List.length_append, List.length_drop]
    rw [← List.drop_append_of_le_length early, List.drop_drop]
    congr 1
    omega

/-- What a client of the queue observes. -/
inductive Event (α : Type) where
  | write (items : List α)
  | consume (result : α)
  | consumeBlock (block : List α)
  | clear
  | clearIfEmpty
  deriving DecidableEq

/-- The effect of each event on the queue.  A single consumption from the empty
queue yields the default item; a block may be any prefix, but not an empty one
while there is something to take. -/
inductive Step (capacity : Nat) (default : α) :
    List α → Event α → List α → Prop where
  | write (content items : List α) :
      Step capacity default content (.write items)
        (keepLast capacity (content ++ items))
  | consume (first : α) (rest : List α) :
      Step capacity default (first :: rest) (.consume first) rest
  | consumeEmpty : Step capacity default [] (.consume default) []
  | consumeBlock (block rest : List α) (taken : block ++ rest ≠ [] → block ≠ []) :
      Step capacity default (block ++ rest) (.consumeBlock block) rest
  | clear (content : List α) : Step capacity default content .clear []
  | clearIfEmpty (content : List α) :
      Step capacity default content .clearIfEmpty content

end BleRepeater.BoundedQueue
