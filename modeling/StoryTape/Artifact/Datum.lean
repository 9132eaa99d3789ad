/-!
# Data of artifacts

A tape is stored as a tree of data, written in one of two formats. Both formats know all the kinds
of data; what tells them apart is how these are written.
-/

namespace StoryTape.Artifact

/-- How artifacts are written. -/
inductive Format where
  | json
  | ron
  deriving DecidableEq, Repr

/-- The file extension of a format. -/
def Format.extension : Format → String
  | .json => "json"
  | .ron => "ron"

/-- A tree of data. -/
inductive Datum where
  /-- No value, where one may be. -/
  | nothing
  /-- A value where one may be. -/
  | present (value : Datum)
  /-- A truth value. -/
  | flag (value : Bool)
  /-- A count. -/
  | number (value : Nat)
  /-- A text. -/
  | text (value : String)
  /-- Data in order. -/
  | array (items : List Datum)
  /-- Data by name, the names being data too. -/
  | object (entries : List (String × Datum))
  /-- Data by name, the names being those of fields. -/
  | record (fields : List (String × Datum))
  deriving Inhabited

end StoryTape.Artifact
