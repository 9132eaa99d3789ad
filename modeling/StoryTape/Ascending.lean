/-!
# Ascending lists

A list is kept in ascending order of a text key, each key once. Insertion puts an element in its
place and takes the place of one with the same key. A key is looked for by halving. The order is
that of code points.
-/

namespace StoryTape.Ascending

/-- Each key is less than every later one. -/
abbrev Sorted {α : Type} (key : α → String) (xs : List α) : Prop :=
  xs.Pairwise fun a b => key a < key b

/-- Insert an element in its place, over an element with the same key. -/
def insert {α : Type} (key : α → String) (a : α) : List α → List α
  | [] => [a]
  | b :: xs =>
    if key a < key b then a :: b :: xs
    else if key a = key b then a :: xs
    else b :: insert key a xs

/-- The elements in ascending order; the last one of a key counts. -/
def ofList {α : Type} (key : α → String) (xs : List α) : List α :=
  xs.foldl (fun sorted a => insert key a sorted) []

/-- Where a key belongs in an ascending list. -/
inductive Place where
  /-- The element of this number has the key. -/
  | taken (index : Nat)
  /-- No element has the key; an element with it would get this number. -/
  | free (index : Nat)
  deriving DecidableEq, Repr

/-- Look for a key among the elements from number `low` up to number `high`, half of which are left
after each step. -/
def searchBetween {α : Type} (key : α → String) (k : String) (xs : List α) (low high : Nat)
    (h : high ≤ xs.length) : Place :=
  if hlow : low < high then
    let middle := low + (high - low) / 2
    let found := key xs[middle]
    if found = k then .taken middle
    else if found < k then searchBetween key k xs (middle + 1) high h
    else searchBetween key k xs low middle (by omega)
  else .free low
termination_by high - low

/-- Look for a key in an ascending list. -/
def search {α : Type} (key : α → String) (k : String) (xs : List α) : Place :=
  searchBetween key k xs 0 xs.length (Nat.le_refl _)

/-- The keys after an insertion are the new key and the old ones. -/
theorem key_of_mem_insert {α : Type} {key : α → String} {a b : α} {xs : List α}
    (h : b ∈ insert key a xs) : b = a ∨ b ∈ xs := by
  induction xs with
  | nil => simpa [insert] using h
  | cons c xs ih =>
    simp only [insert] at h
    split at h
    · simpa using h
    · split at h
      · rcases List.mem_cons.mp h with h | h
        · exact .inl h
        · exact .inr (List.mem_cons_of_mem _ h)
      · rcases List.mem_cons.mp h with h | h
        · exact .inr (h ▸ List.mem_cons_self)
        · rcases ih h with h | h
          · exact .inl h
          · exact .inr (List.mem_cons_of_mem _ h)

/-- Of two different texts one is less. -/
theorem lt_of_not_lt_of_ne {a b : String} (h : ¬ a < b) (hne : a ≠ b) : b < a := by
  refine Classical.byContradiction fun hnot => hne ?_
  exact String.le_antisymm (String.not_lt.mp hnot) (String.not_lt.mp h)

/-- Putting an element in keeps a list ascending. -/
theorem sorted_insert {α : Type} {key : α → String} {xs : List α} (h : Sorted key xs) (a : α) :
    Sorted key (insert key a xs) := by
  induction xs with
  | nil => simp [insert, Sorted]
  | cons b xs ih =>
    rw [Sorted, List.pairwise_cons] at h
    simp only [insert]
    split
    · next hlt =>
      refine List.pairwise_cons.mpr ⟨fun c hc => ?_, List.pairwise_cons.mpr h⟩
      rcases List.mem_cons.mp hc with rfl | hc
      · exact hlt
      · exact String.lt_trans hlt (h.1 c hc)
    · next hnlt =>
      split
      · next heq =>
        exact List.pairwise_cons.mpr ⟨fun c hc => heq ▸ h.1 c hc, h.2⟩
      · next hne =>
        refine List.pairwise_cons.mpr ⟨fun c hc => ?_, ih h.2⟩
        rcases key_of_mem_insert hc with rfl | hc
        · exact lt_of_not_lt_of_ne hnlt hne
        · exact h.1 c hc

/-- Putting elements in one after the other keeps a list ascending. -/
theorem sorted_foldl_insert {α : Type} {key : α → String} (xs : List α) {sorted : List α}
    (h : Sorted key sorted) :
    Sorted key (xs.foldl (fun sorted a => insert key a sorted) sorted) := by
  induction xs generalizing sorted with
  | nil => exact h
  | cons a xs ih => exact ih (sorted_insert h a)

/-- The list made from any elements is ascending. -/
theorem sorted_ofList {α : Type} (key : α → String) (xs : List α) : Sorted key (ofList key xs) :=
  sorted_foldl_insert xs List.Pairwise.nil

/-- What is left of an ascending list is ascending. -/
theorem sorted_filter {α : Type} {key : α → String} {xs : List α} (h : Sorted key xs)
    (p : α → Bool) : Sorted key (xs.filter p) := List.Pairwise.filter p h

end StoryTape.Ascending
