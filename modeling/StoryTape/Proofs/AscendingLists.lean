import StoryTape.Dict
import StoryTape.TagSet

/-!
# Looking up and rebuilding ascending lists

A list in ascending order is rebuilt unchanged from its own elements, so a tag set or a dictionary
is determined by what it lists. Every key occurs once: an entry is found exactly when it is there,
and insertion changes what is found under its own key alone.
-/

namespace StoryTape

namespace Ascending

variable {α : Type} {key : α → String} {xs : List α}

/-- An element between two parts of a list goes between them. -/
theorem insert_append {a : α} {before after : List α} (hbefore : ∀ b ∈ before, key b < key a)
    (hafter : ∀ b ∈ after, key a < key b) :
    insert key a (before ++ after) = before ++ a :: after := by
  induction before with
  | nil =>
    cases after with
    | nil => rfl
    | cons b after => exact if_pos (hafter b List.mem_cons_self)
  | cons b before ih =>
    have hb : key b < key a := hbefore b List.mem_cons_self
    have hnot : ¬ key a < key b := fun hlt => String.lt_irrefl _ (String.lt_trans hlt hb)
    have hne : key a ≠ key b := fun heq => String.lt_irrefl _ (heq ▸ hb)
    rw [List.cons_append, insert, if_neg hnot, if_neg hne,
      ih fun c hc => hbefore c (List.mem_cons_of_mem b hc)]
    rfl

/-- An element beyond all others comes last. -/
theorem insert_eq_append {a : α} (h : ∀ b ∈ xs, key b < key a) :
    insert key a xs = xs ++ [a] := by
  have hnone : ∀ b ∈ ([] : List α), key a < key b := nofun
  have hlast := insert_append h hnone
  rwa [List.append_nil] at hlast

/-- Inserting the elements of an ascending list one after the other lists them in order. -/
theorem ofList_eq_self (h : Sorted key xs) : ofList key xs = xs := by
  have hfold : ∀ rest listed : List α, Sorted key (listed ++ rest) →
      rest.foldl (fun sorted a => insert key a sorted) listed = listed ++ rest := by
    intro rest
    induction rest with
    | nil => intro listed _; simp
    | cons a rest ih =>
      intro listed hsorted
      have hbefore : ∀ b ∈ listed, key b < key a := fun b hb =>
        (List.pairwise_append.mp hsorted).2.2 b hb a List.mem_cons_self
      rw [List.foldl_cons, insert_eq_append hbefore, ih _ (by simpa using hsorted)]
      simp
  exact hfold xs [] h

/-- A search by key looks at the first element and then at the others. -/
theorem find?_cons_key (a : α) (k : String) :
    (a :: xs).find? (key · == k) = if key a = k then some a else xs.find? (key · == k) := by
  rw [List.find?_cons]
  by_cases hk : key a = k
  · rw [if_pos hk, beq_iff_eq.mpr hk]
  · rw [if_neg hk, beq_eq_false_iff_ne.mpr hk]

/-- What is found under a key after an insertion: the new element under its own, under any other
what was found before. -/
theorem find?_insert (a : α) (k : String) (h : Sorted key xs) :
    (insert key a xs).find? (key · == k) =
      if key a = k then some a else xs.find? (key · == k) := by
  induction xs with
  | nil => rw [insert, find?_cons_key]
  | cons b xs ih =>
    rw [insert]
    split
    · rw [find?_cons_key]
    · split
      · next hsame =>
        rw [find?_cons_key, find?_cons_key, ← hsame]
        by_cases hk : key a = k
        · rw [if_pos hk, if_pos hk]
        · rw [if_neg hk, if_neg hk, if_neg hk]
      · next hdiff =>
        rw [find?_cons_key, find?_cons_key, ih (List.pairwise_cons.mp h).2]
        by_cases hb : key b = k
        · have hk : key a ≠ k := fun hk => hdiff (hk.trans hb.symm)
          rw [if_pos hb, if_neg hk, if_pos hb]
        · rw [if_neg hb, if_neg hb]

/-- An element is found under its key. -/
theorem find?_eq_some_of_mem (h : Sorted key xs) {a : α} (ha : a ∈ xs) :
    xs.find? (key · == key a) = some a := by
  induction xs with
  | nil => cases ha
  | cons b xs ih =>
    obtain ⟨hhead, htail⟩ := List.pairwise_cons.mp h
    rw [find?_cons_key]
    rcases List.mem_cons.mp ha with rfl | ha
    · rw [if_pos rfl]
    · have hne : key b ≠ key a := fun heq => String.lt_irrefl _ (heq ▸ hhead a ha)
      rw [if_neg hne, ih htail ha]

end Ascending

namespace Dict

variable {α : Type}

/-- What was put in is found under its name, and nothing else has changed. -/
theorem get?_insert (d : Dict α) (name name' : String) (a : α) :
    (d.insert name a).get? name' = if name = name' then some a else d.get? name' := by
  rw [get?, insert, Ascending.find?_insert _ _ d.sorted]
  split <;> rfl

/-- A name has the value that its entry lists. -/
theorem get?_eq_some_iff {d : Dict α} {name : String} {a : α} :
    d.get? name = some a ↔ (name, a) ∈ d.entries := by
  constructor
  · intro h
    obtain ⟨entry, hfound, rfl⟩ := Option.map_eq_some_iff.mp h
    have hname : entry.1 = name := by simpa using List.find?_some hfound
    exact hname ▸ List.mem_of_find?_eq_some hfound
  · intro h
    rw [get?, Ascending.find?_eq_some_of_mem d.sorted h]
    rfl

/-- The names are those that have a value. -/
theorem mem_names_iff {d : Dict α} {name : String} :
    name ∈ d.names ↔ ∃ a, d.get? name = some a := by
  simp only [names, List.mem_map, Prod.exists, exists_and_right, exists_eq_right,
    get?_eq_some_iff]

/-- A dictionary is that of its entries. -/
theorem ofList_entries (d : Dict α) : ofList d.entries = d :=
  ext_entries (Ascending.ofList_eq_self d.sorted)

end Dict

/-- A tag set is that of its members. -/
theorem TagSet.ofList_tags (s : TagSet) : ofList s.tags = s :=
  ext_tags (Ascending.ofList_eq_self s.sorted)

end StoryTape
