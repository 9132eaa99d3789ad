/-!
# Names that ignore ASCII case

Locations and tape labels are matched with the twenty-six ASCII letters of both cases taken as
equal and every other character as itself.
-/

namespace StoryTape.Text

/-- A text with its ASCII capitals made small. -/
def fold (s : List Char) : List Char := s.map Char.toLower

/-- Whether two texts are equal but for ASCII case. -/
def sameFold (a b : List Char) : Bool := fold a == fold b

/-- Whether a text starts with another one, ignoring ASCII case. -/
def startsWithFold (s head : List Char) : Bool := (fold head).isPrefixOf (fold s)

/-- Whether a text ends with another one, ignoring ASCII case. -/
def endsWithFold (s tail : List Char) : Bool := (fold tail).isSuffixOf (fold s)

/-- Whether two names are equal but for ASCII case. -/
def sameName (a b : String) : Bool := sameFold a.toList b.toList

/-- A name is the same as itself. -/
@[simp] theorem sameName_refl (a : String) : sameName a a = true := by
  simp [sameName, sameFold]

/-- Being the same name is symmetric. -/
theorem sameName_symm {a b : String} (h : sameName a b = true) : sameName b a = true := by
  simp only [sameName, sameFold, beq_iff_eq] at h ⊢
  exact h.symm

/-- Being the same name is transitive. -/
theorem sameName_trans {a b c : String} (hab : sameName a b = true) (hbc : sameName b c = true) :
    sameName a c = true := by
  simp only [sameName, sameFold, beq_iff_eq] at hab hbc ⊢
  exact hab.trans hbc

end StoryTape.Text
