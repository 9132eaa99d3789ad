import StoryTape.Ascending

/-!
# Dictionaries

A dictionary keeps a value per name, in ascending order of the names. Dictionaries with the same
entries are equal, and what is written out comes in that order.
-/

namespace StoryTape

/-- Values by name, in ascending order of the names. -/
structure Dict (α : Type) where
  /-- The entries. -/
  entries : List (String × α)
  sorted : Ascending.Sorted Prod.fst entries

namespace Dict

variable {α : Type}

/-- The dictionary without entries. -/
def empty : Dict α := ⟨[], .nil⟩

instance : Inhabited (Dict α) := ⟨empty⟩

/-- Dictionaries with the same entries are the same. -/
theorem ext_entries {a b : Dict α} (h : a.entries = b.entries) : a = b := by
  cases a; cases b; cases h; rfl

instance [DecidableEq α] : DecidableEq (Dict α) := fun a b =>
  if h : a.entries = b.entries then .isTrue (ext_entries h) else .isFalse fun e => h (e ▸ rfl)

/-- Whether there is no entry. -/
def isEmpty (d : Dict α) : Bool := d.entries.isEmpty

/-- The value of a name. -/
def get? (d : Dict α) (name : String) : Option α :=
  (d.entries.find? (·.1 == name)).map Prod.snd

/-- Whether a name has a value. -/
def contains (d : Dict α) (name : String) : Bool := (d.get? name).isSome

/-- The dictionary with a name's value set. -/
def insert (d : Dict α) (name : String) (a : α) : Dict α :=
  ⟨Ascending.insert Prod.fst (name, a) d.entries, Ascending.sorted_insert d.sorted (name, a)⟩

/-- The dictionary of the given entries; of several with one name the last counts. -/
def ofList (entries : List (String × α)) : Dict α :=
  ⟨Ascending.ofList Prod.fst entries, Ascending.sorted_ofList Prod.fst entries⟩

/-- The names, ascending. -/
def names (d : Dict α) : List String := d.entries.map Prod.fst

/-- The values, in the order of their names. -/
def values (d : Dict α) : List α := d.entries.map Prod.snd

end Dict

end StoryTape
