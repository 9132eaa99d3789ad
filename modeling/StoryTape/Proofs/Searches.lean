import StoryTape.Proofs.AscendingLists

/-!
# Looking for a key by halving

In an ascending list a search by halving finds the element with the key, or the place in front of
the first element beyond it. Putting a new element in that place is insertion in order.
-/

namespace StoryTape.Ascending

variable {α : Type} {key : α → String} {k : String} {xs : List α}

/-- What a place says of an ascending list. -/
inductive Place.Tells (key : α → String) (k : String) (xs : List α) : Place → Prop
  /-- The element there has the key. -/
  | taken {index : Nat} {a : α} (ha : xs[index]? = some a) (hkey : key a = k) :
      Tells key k xs (.taken index)
  /-- The elements in front of the place are before the key, all others are beyond it. -/
  | free {before after : List α} (hxs : xs = before ++ after) (hbefore : ∀ b ∈ before, key b < k)
      (hafter : ∀ b ∈ after, k < key b) : Tells key k xs (.free before.length)

/-- What stands in front of an element is less, and what stands behind it is greater. -/
theorem around_getElem (h : Sorted key xs) {i : Nat} (hi : i < xs.length) :
    (∀ b ∈ xs.take i, key b < key xs[i]) ∧ ∀ b ∈ xs.drop (i + 1), key xs[i] < key b := by
  have hcut : xs.take i ++ xs[i] :: xs.drop (i + 1) = xs := by
    rw [List.getElem_cons_drop, List.take_append_drop]
  rw [← hcut] at h
  obtain ⟨-, hrest, hfront⟩ := List.pairwise_append.mp h
  exact ⟨fun b hb => hfront b hb _ List.mem_cons_self, (List.pairwise_cons.mp hrest).1⟩

/-- Each step leaves out elements that are before the key or beyond it. -/
theorem tells_searchBetween (hsorted : Sorted key xs) {low high : Nat} (h : high ≤ xs.length)
    (hle : low ≤ high) (hbefore : ∀ b ∈ xs.take low, key b < k)
    (hafter : ∀ b ∈ xs.drop high, k < key b) :
    (searchBetween key k xs low high h).Tells key k xs := by
  fun_induction searchBetween key k xs low high h with
  | case1 low high h hlow middle found hfound =>
    exact .taken (List.getElem?_eq_getElem _) hfound
  | case2 low high h hlow middle found hne hlt ih =>
    have hmiddle : middle < xs.length := by omega
    refine ih (by omega) (fun b hb => ?_) hafter
    rw [← List.take_append_getElem hmiddle, List.mem_append, List.mem_singleton] at hb
    rcases hb with hb | rfl
    · exact String.lt_trans ((around_getElem hsorted hmiddle).1 b hb) hlt
    · exact hlt
  | case3 low high h hlow middle found hne hnlt ih =>
    have hmiddle : middle < xs.length := by omega
    have hgt : k < found := lt_of_not_lt_of_ne hnlt hne
    refine ih (by omega) hbefore fun b hb => ?_
    rw [List.drop_eq_getElem_cons hmiddle, List.mem_cons] at hb
    rcases hb with rfl | hb
    · exact hgt
    · exact String.lt_trans hgt ((around_getElem hsorted hmiddle).2 b hb)
  | case4 low high h hlow =>
    have hsame : low = high := by omega
    have hlength : (xs.take low).length = low := List.length_take_of_le (by omega)
    have hplace := Place.Tells.free (List.take_append_drop low xs).symm hbefore (hsame ▸ hafter)
    rwa [hlength] at hplace

/-- What the search finds tells where the key is, or where it would be put. -/
theorem tells_search (h : Sorted key xs) (k : String) : (search key k xs).Tells key k xs :=
  tells_searchBetween h _ (Nat.zero_le _) (by simp) (by simp)

/-- A key is found exactly when an element has it. -/
theorem exists_search_eq_taken_iff (h : Sorted key xs) (k : String) :
    (∃ index, search key k xs = .taken index) ↔ ∃ a ∈ xs, key a = k := by
  have htells := tells_search h k
  generalize search key k xs = place at htells
  cases htells with
  | taken ha hkey => exact ⟨fun _ => ⟨_, List.mem_of_getElem? ha, hkey⟩, fun _ => ⟨_, rfl⟩⟩
  | free hxs hbefore hafter =>
    refine ⟨nofun, ?_⟩
    rintro ⟨a, ha, rfl⟩
    rcases List.mem_append.mp (hxs ▸ ha) with ha | ha
    · exact absurd (hbefore a ha) (String.lt_irrefl _)
    · exact absurd (hafter a ha) (String.lt_irrefl _)

/-! ### Insertion -/

/-- Put an element in a free place. -/
def Place.put (a : α) (xs : List α) : Place → List α
  | .taken _ => xs
  | .free index => xs.insertIdx index a

/-- An element that is there stays where it is. -/
theorem insert_eq_self (h : Sorted key xs) {a : α} (ha : a ∈ xs) : insert key a xs = xs := by
  induction xs with
  | nil => cases ha
  | cons b xs ih =>
    obtain ⟨hhead, htail⟩ := List.pairwise_cons.mp h
    rw [insert]
    rcases List.mem_cons.mp ha with rfl | ha
    · rw [if_neg (String.lt_irrefl _), if_pos rfl]
    · have hlt := hhead a ha
      have hnot : ¬ key a < key b := fun hgt => String.lt_irrefl _ (String.lt_trans hlt hgt)
      have hne : key a ≠ key b := fun heq => String.lt_irrefl _ (heq ▸ hlt)
      rw [if_neg hnot, if_neg hne, ih htail ha]

/-- To insert behind the first elements is to put in between. -/
theorem insertIdx_length_append (a : α) (before after : List α) :
    (before ++ after).insertIdx before.length a = before ++ a :: after := by
  induction before with
  | nil => rfl
  | cons b before ih => rw [List.cons_append, List.length_cons, List.insertIdx_succ_cons, ih]; rfl

/-- Insertion in order puts an element in the place that is found for its key. -/
theorem insert_eq_put (h : Sorted key xs) {a : α} (hkey : ∀ b ∈ xs, key b = key a → b = a) :
    insert key a xs = (search key (key a) xs).put a xs := by
  have htells := tells_search h (key a)
  generalize search key (key a) xs = place at htells
  cases htells with
  | taken hb hsame =>
    have hmem := List.mem_of_getElem? hb
    exact insert_eq_self h (hkey _ hmem hsame ▸ hmem)
  | free hxs hbefore hafter =>
    subst hxs
    rw [insert_append hbefore hafter, Place.put, insertIdx_length_append]

end StoryTape.Ascending
