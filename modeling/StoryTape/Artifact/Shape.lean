import StoryTape.Artifact.Datum

/-!
# Shapes of data

What a reader of an artifact expects. A record says which fields it has; a reader takes these, each
at most once, and passes over any other.
-/

namespace StoryTape.Artifact

/-- What kind of data is expected. -/
inductive Shape where
  | text
  | flag
  /-- A count below `2 ^ 64`. -/
  | count
  /-- A value or nothing. -/
  | optional (value : Shape)
  /-- Any number of items. -/
  | list (item : Shape)
  /-- Any number of values, each under its name. -/
  | dict (value : Shape)
  /-- The fields of a record, and the name of its type. -/
  | record (type : String) (fields : List (String × Shape))

/-- The fields of a record among its entries, where nothing has been kept of one that is no field.
None if a field is given twice. -/
def knownFields (entries : List (String × Option Datum)) : Option (List (String × Datum)) :=
  let fields := entries.filterMap fun (name, value) => value.map fun d => (name, d)
  if (fields.map Prod.fst).Nodup then some fields else none

end StoryTape.Artifact
