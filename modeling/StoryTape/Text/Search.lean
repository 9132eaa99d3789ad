/-!
# Searching and splitting texts

A marker is a short text looked for inside another one. The functions here cut a text around its
first or last occurrence of a marker, or around every occurrence; what is cut out is exactly the
marker.
-/

namespace StoryTape.Text

/-- The text before and the text after the first occurrence of a marker. -/
def splitFirst (marker : List Char) : List Char → Option (List Char × List Char)
  | [] => if marker.isEmpty then some ([], []) else none
  | c :: s =>
    if marker.isPrefixOf (c :: s) then some ([], (c :: s).drop marker.length)
    else (splitFirst marker s).map fun (before, after) => (c :: before, after)

/-- The text before and the text after the last occurrence of a marker. -/
def splitLast (marker : List Char) : List Char → Option (List Char × List Char)
  | [] => if marker.isEmpty then some ([], []) else none
  | c :: s =>
    match splitLast marker s with
    | some (before, after) => some (c :: before, after)
    | none =>
      if marker.isPrefixOf (c :: s) then some ([], (c :: s).drop marker.length) else none

/-- Whether a marker occurs in a text. -/
def occurs (marker s : List Char) : Bool := (splitFirst marker s).isSome

/-- Add a character to the front of the first piece. -/
def consPiece (c : Char) : List (List Char) → List (List Char)
  | [] => [[c]]
  | piece :: pieces => (c :: piece) :: pieces

/-- The pieces between the occurrences of a character; `n` occurrences give `n + 1` pieces. -/
def splitChar (c : Char) : List Char → List (List Char)
  | [] => [[]]
  | d :: s => if d = c then [] :: splitChar c s else consPiece d (splitChar c s)

/-- Split after letting the rest of a marker pass by: `skip` characters are still to be dropped. -/
def splitEveryFrom (marker : List Char) : Nat → List Char → List (List Char)
  | _, [] => [[]]
  | skip + 1, _ :: s => splitEveryFrom marker skip s
  | 0, c :: s =>
    if marker.isPrefixOf (c :: s) then [] :: splitEveryFrom marker (marker.length - 1) s
    else consPiece c (splitEveryFrom marker 0 s)

/-- The pieces between the occurrences of a nonempty marker, found from left to right. -/
def splitEvery (marker s : List Char) : List (List Char) := splitEveryFrom marker 0 s

/-- A text with a character replaced by a text everywhere. -/
def replaceChar (c : Char) (text : List Char) (s : List Char) : List Char :=
  s.flatMap fun d => if d = c then text else [d]

/-- The pieces joined with a separator between them. -/
def join (separator : List Char) : List (List Char) → List Char
  | [] => []
  | [piece] => piece
  | piece :: pieces => piece ++ separator ++ join separator pieces

/-- A prefix and what follows it make up the text. -/
theorem eq_append_of_isPrefixOf {m s : List Char} (h : m.isPrefixOf s = true) :
    s = m ++ s.drop m.length := by
  obtain ⟨t, rfl⟩ := List.isPrefixOf_iff_prefix.mp h
  simp

/-- Cutting around the first occurrence loses the marker alone. -/
theorem eq_append_of_splitFirst {m s before after : List Char}
    (h : splitFirst m s = some (before, after)) : s = before ++ m ++ after := by
  induction s generalizing before after with
  | nil =>
    simp only [splitFirst] at h
    split at h <;> simp_all
  | cons c r ih =>
    simp only [splitFirst] at h
    split at h
    · rename_i hp
      simp only [Option.some.injEq, Prod.mk.injEq] at h
      obtain ⟨rfl, rfl⟩ := h
      simpa using eq_append_of_isPrefixOf hp
    · obtain ⟨⟨b, a⟩, hr, he⟩ := Option.map_eq_some_iff.1 h
      simp only [Prod.mk.injEq] at he
      obtain ⟨rfl, rfl⟩ := he
      rw [ih hr]; simp

/-- Cutting around the last occurrence loses the marker alone. -/
theorem eq_append_of_splitLast {m s before after : List Char}
    (h : splitLast m s = some (before, after)) : s = before ++ m ++ after := by
  induction s generalizing before after with
  | nil =>
    simp only [splitLast] at h
    split at h <;> simp_all
  | cons c r ih =>
    simp only [splitLast] at h
    split at h
    · rename_i b a hr
      simp only [Option.some.injEq, Prod.mk.injEq] at h
      obtain ⟨rfl, rfl⟩ := h
      rw [ih hr]; simp
    · split at h
      · rename_i hp
        simp only [Option.some.injEq, Prod.mk.injEq] at h
        obtain ⟨rfl, rfl⟩ := h
        simpa using eq_append_of_isPrefixOf hp
      · simp at h

/-- Splitting at a character loses only its occurrences. -/
theorem join_splitChar (c : Char) (s : List Char) : join [c] (splitChar c s) = s := by
  have nonempty : ∀ t, splitChar c t ≠ [] := by
    intro t
    cases t with
    | nil => simp [splitChar]
    | cons d t =>
      simp only [splitChar]
      split
      · simp
      · cases splitChar c t <;> simp [consPiece]
  induction s with
  | nil => rfl
  | cons d r ih =>
    simp only [splitChar]
    cases hr : splitChar c r with
    | nil => exact absurd hr (nonempty r)
    | cons p ps =>
      rw [hr] at ih
      split
      · next h => simp [join, h, ih]
      · cases ps <;> simp [consPiece, join] at ih ⊢ <;> exact ih

end StoryTape.Text
