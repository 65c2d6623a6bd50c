import Mathlib

/-!
# The last answer

A loop over a list that overwrites its answer at every item it is concerned with.  The answer
is that of the last such item, so it is the same for every order of the items exactly when all
of them give the same one.
-/

namespace BleRepeater

variable {α β : Type} {concerned : α → Bool} {answer : α → β}

/-- The answer after a list, from what it was before. -/
def lastAnswer (concerned : α → Bool) (answer : α → β) (before : β) (items : List α) : β :=
  items.foldl (fun found item => if concerned item then answer item else found) before

/-- An item at the end that the loop is concerned with decides. -/
theorem lastAnswer_snoc {before : β} {items : List α} {item : α}
    (meets : concerned item = true) :
    lastAnswer concerned answer before (items ++ [item]) = answer item := by
  simp [lastAnswer, List.foldl_append, meets]

/-- Without an item that the loop is concerned with, the answer stays what it was. -/
theorem lastAnswer_of_none {before : β} {items : List α}
    (none : ∀ item ∈ items, concerned item = false) :
    lastAnswer concerned answer before items = before := by
  induction items with
  | nil => rfl
  | cons item items ih =>
      have here := none item (by simp)
      have later := ih fun other member => none other (by simp [member])
      simpa [lastAnswer, here] using later

/-- Where all items give the same answer, so does the loop, unless it is concerned with none
of them. -/
theorem lastAnswer_of_all {before common : β} {items : List α}
    (all : ∀ item ∈ items, concerned item = true → answer item = common)
    (none : (∀ item ∈ items, concerned item = false) → before = common) :
    lastAnswer concerned answer before items = common := by
  induction items generalizing before with
  | nil => exact none (by simp)
  | cons item items ih =>
      have later : ∀ other ∈ items, concerned other = true → answer other = common :=
        fun other member => all other (by simp [member])
      cases meets : concerned item with
      | true =>
          have here := all item (by simp) meets
          simpa [lastAnswer, meets] using ih later fun _ => here
      | false =>
          have rest := ih later fun others =>
            none (by simpa [meets] using others)
          simpa [lastAnswer, meets] using rest

/-- Two lists of items that the loop is concerned with in the same places, and that give the
same answers there. -/
theorem lastAnswer_of_forall₂ {γ : Type} {others : γ → Bool} {response : γ → β}
    {related : α → γ → Prop} {before : β} {items : List α} {images : List γ}
    (both : List.Forall₂ related items images)
    (meets : ∀ item image, related item image → concerned item = others image)
    (answers : ∀ item image, related item image → image ∈ images → others image = true →
      answer item = response image) :
    lastAnswer concerned answer before items = lastAnswer others response before images := by
  induction both generalizing before with
  | nil => rfl
  | @cons item image items images here _ ih =>
      have later := fun item image related member =>
        answers item image related (List.mem_cons_of_mem _ member)
      simp only [lastAnswer, List.foldl_cons] at ih ⊢
      rw [meets item image here, ih later]
      cases same : others image with
      | true => rw [if_pos rfl, if_pos rfl, answers item image here List.mem_cons_self same]
      | false => rfl

/-- The answer is the same for every order of the items exactly when all items that the loop is
concerned with give that answer, and it was there before if there are none. -/
theorem lastAnswer_perm_iff {before common : β} {items : List α} :
    (∀ permuted : List α, permuted.Perm items →
      lastAnswer concerned answer before permuted = common) ↔
      (∀ item ∈ items, concerned item = true → answer item = common) ∧
        ((∀ item ∈ items, concerned item = false) → before = common) := by
  constructor
  · intro every
    refine ⟨?_, ?_⟩
    · intro item member meets
      obtain ⟨front, back, rfl⟩ := List.append_of_mem member
      have moved : (front ++ back ++ [item]).Perm (front ++ item :: back) := by
        rw [List.append_assoc]
        exact (List.perm_append_singleton item back).append_left front
      rw [← every _ moved, lastAnswer_snoc meets]
    · intro none
      rw [← every items (.refl items), lastAnswer_of_none none]
  · rintro ⟨all, none⟩ permuted perm
    refine lastAnswer_of_all ?_ ?_
    · exact fun item member => all item (perm.mem_iff.mp member)
    · exact fun others => none fun item member => others item (perm.mem_iff.mpr member)

end BleRepeater
