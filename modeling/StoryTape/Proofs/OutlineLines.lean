import StoryTape.Script.Outline
import StoryTape.Proofs.Runs

/-!
# What a line of dialogue does

A line of dialogue moves the cursor and stores its text. One statement for each of the steps says
when it succeeds and what comes of it.
-/

namespace StoryTape.Script

open Text

/-- A cursor that has moved is at the depth of the line, which is at most one deeper than the line
before, and no deeper for a dead end. Dead ends and answers leave the counters alone. -/
theorem Cursor.advance_eq_ok {c c' : Cursor} {depth : Nat} {deadEnd : Bool}
    (h : c.advance depth deadEnd = (c', .ok ())) :
    c'.root = c.root ∧ c'.depth = depth ∧ depth ≤ c.depth + (if deadEnd then 0 else 1) ∧
      (deadEnd = true ∨ depth % 2 = 1 → c'.counters = widen c.counters depth) := by
  unfold Cursor.advance at h
  grind

namespace Outline

/-- Of a choice both the label and the text are stored. -/
theorem storeChoice_eq_ok {name : String} {text : List Char} {store store' : LineStore}
    {keys : List String} (h : storeChoice name text store = (store', .ok keys)) :
    ∃ label full store₁ labelKeys, splitChoice text = some (label, full) ∧
      store.add (name ++ "S") label = (store₁, .ok labelKeys) ∧
      store₁.add name full = (store', .ok keys) := by
  unfold storeChoice at h
  split at h
  · cases h
  · next label full hsplit =>
    split at h
    · cases h
    · split at h
      · cases h
      · next store₁ labelKeys hlabel => exact ⟨label, full, store₁, labelKeys, hsplit, hlabel, h⟩

/-- The line that the cursor is at, with its keys. -/
def lineAt (cursor : Cursor) (depth : Nat) (deadEnd : Bool) (content : List Char)
    (keys : List String) : OutlineLine :=
  let (outer, inner, rest) := takeGroups content
  let role :=
    if deadEnd then
      .deadEnd outer inner (if rest.isEmpty then none else some (String.ofList (trimEnd rest)))
    else if depth % 2 = 0 then .choice outer inner
    else .answer (cursor.choiceName depth)
  { depth, name := cursor.lineName depth, keys, role }

/-- Store the text of a line: that of a choice stands behind its groups, a dead end has none. -/
def storeLine (cursor : Cursor) (depth : Nat) (deadEnd : Bool) (content : List Char)
    (store : LineStore) : LineStore × Checked (List String) :=
  if deadEnd then (store, .ok [])
  else if depth % 2 = 0 then storeChoice (cursor.lineName depth) (takeGroups content).2.2 store
  else storeAnswer (cursor.lineName depth) content store

/-- Reading a line is storing its text and noting it with its keys. -/
theorem readContent_eq {cursor : Cursor} {depth : Nat} {deadEnd : Bool} {content : List Char}
    {store : LineStore} :
    readContent cursor depth deadEnd content store =
      let (store, keys) := storeLine cursor depth deadEnd content store
      (store, keys.map (lineAt cursor depth deadEnd content)) := by
  unfold readContent storeLine lineAt
  cases deadEnd with
  | true => rfl
  | false => by_cases heven : depth % 2 = 0 <;> simp [heven]

/-- A line was added: it has hyphens, the cursor moved to it and its text was stored. -/
theorem addLine_eq_ok {o o' : Outline} {line : List Char} {store store' : LineStore}
    (h : o.addLine line store = (o', store', .ok ())) :
    ∃ depth deadEnd content cursor keys,
      splitHyphens (trim line) = some (depth, deadEnd, content) ∧
      o.cursor.advance depth deadEnd = (cursor, .ok ()) ∧
      storeLine cursor depth deadEnd content store = (store', .ok keys) ∧
      o' = { cursor, lines := o.lines ++ [lineAt cursor depth deadEnd content keys] } := by
  simp only [addLine] at h
  split at h
  · cases h
  · next depth deadEnd content hsplit =>
    split at h
    · cases h
    · next cursor _ hmove =>
      rw [readContent_eq] at h
      rcases hstore : storeLine cursor depth deadEnd content store with ⟨store₁, e | keys⟩
      · rw [hstore] at h
        cases h
      · rw [hstore] at h
        cases h
        exact ⟨depth, deadEnd, content, cursor, keys, hsplit, hmove, hstore, rfl⟩

/-- A dialogue keeps its name. -/
theorem root_addLine {o o' : Outline} {line : List Char} {store store' : LineStore}
    (h : o.addLine line store = (o', store', .ok ())) : o'.root = o.root := by
  obtain ⟨depth, deadEnd, content, cursor, keys, -, hmove, -, rfl⟩ := addLine_eq_ok h
  exact (Cursor.advance_eq_ok hmove).1

end Outline

end StoryTape.Script
