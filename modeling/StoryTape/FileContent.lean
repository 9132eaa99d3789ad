/-!
# Contents of files

What comes of reading a file as text.
-/

namespace StoryTape

/-- The result of reading a file. -/
inductive FileContent where
  /-- Its text. -/
  | text (content : String)
  /-- There is no such file. -/
  | missing
  /-- There is something, but no text can be read from it. -/
  | unreadable
  deriving DecidableEq, Repr

end StoryTape
