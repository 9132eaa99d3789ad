import StoryTape.Proofs.KeyedLines

/-!
# Storing under one name

A text or a sequence is stored under one name. Whatever of it is stored before an error is met, the
lines come behind those of that name, a counter is noted of that name alone and only when it has
lines, and every other name is left alone.
-/

namespace StoryTape.Script

open Text

namespace LineStore

/-- The stores that come of storing under one name. -/
inductive GrowsUnder (name : String) (s : LineStore) : LineStore → Prop
  /-- Nothing is stored. -/
  | refl : GrowsUnder name s s
  /-- The lines of a text are added. -/
  | lines {s' : LineStore} (h : GrowsUnder name s s') (text : List Char) :
      GrowsUnder name s (s'.addPlain name text).1
  /-- The counter of a sequence that has lines is noted. -/
  | counter {s' : LineStore} (h : GrowsUnder name s s') (kind : SequenceKind)
      (hlines : s'.linesOf name ≠ []) : GrowsUnder name s (s'.addCounter name kind)

variable {s s' s'' : LineStore} {name : String} {keys : List String}

/-- Growing under a name twice is growing under it. -/
theorem GrowsUnder.trans (h : s.GrowsUnder name s') (h' : s'.GrowsUnder name s'') :
    s.GrowsUnder name s'' := by
  induction h' with
  | refl => exact h
  | lines _ text ih => exact ih.lines text
  | counter _ kind hlines ih => exact ih.counter kind hlines

/-- A text that is stored has a line. -/
theorem linesOf_ne_nil_of_addPlain {text : List Char} (h : s.addPlain name text = (s', .ok keys)) :
    s'.linesOf name ≠ [] := by
  have hlines := linesOf_of_addPlain h
  rw [addPlain] at h
  split at h
  · cases h
  · next hpieces =>
    rw [hlines]
    exact List.append_ne_nil_of_right_ne_nil _ fun hnil => hpieces (List.isEmpty_iff.mpr hnil)

section Sequences

variable {add : LineStore → List Char → LineStore × Checked (List String)}
  {parts : List (List Char)} {kind : SequenceKind}

/-- Parts are stored under one name if each is. -/
theorem growsUnder_addParts (hadd : ∀ (s : LineStore) part, s.GrowsUnder name (add s part).1)
    (s : LineStore) (parts : List (List Char)) : s.GrowsUnder name (addParts add s parts).1 := by
  induction parts generalizing s with
  | nil => exact .refl
  | cons part parts ih =>
    have hpart := hadd s part
    rw [addParts]
    split
    · next s' _ hstored =>
      rw [hstored] at hpart
      exact hpart.trans (ih s')
    · next s' e hstored =>
      rw [hstored] at hpart
      exact hpart

/-- Once a sequence is stored its name has a line. -/
theorem linesOf_ne_nil_of_addSequenceWith
    (hgrows : ∀ (s : LineStore) part, s.Grows part.length (add s part).1)
    (hadd : ∀ s part s' keys, add s part = (s', .ok keys) → s'.linesOf name ≠ [])
    (hparts : parts ≠ []) (h : addSequenceWith add s name parts kind = (s', .ok keys)) :
    s'.linesOf name ≠ [] := by
  rw [addSequenceWith] at h
  split at h
  · cases h
  · split at h
    · next s₁ _ hstored =>
      cases h
      have hlines := linesOf_ne_nil_of_addParts hgrows hadd hparts hstored
      cases kind <;> exact hlines
    · cases h

/-- A sequence is stored under one name if its parts are. -/
theorem growsUnder_addSequenceWith
    (hgrows : ∀ (s : LineStore) part, s.Grows part.length (add s part).1)
    (hlines : ∀ s part s' keys, add s part = (s', .ok keys) → s'.linesOf name ≠ [])
    (hadd : ∀ (s : LineStore) part, s.GrowsUnder name (add s part).1) (s : LineStore)
    (hparts : parts ≠ []) (kind : SequenceKind) :
    s.GrowsUnder name (addSequenceWith add s name parts kind).1 := by
  have hstore := growsUnder_addParts hadd s parts
  rw [addSequenceWith]
  split
  · exact .refl
  · split
    · next s' _ hstored =>
      rw [hstored] at hstore
      exact hstore.counter kind (linesOf_ne_nil_of_addParts hgrows hlines hparts hstored)
    · next s' e hstored =>
      rw [hstored] at hstore
      exact hstore

end Sequences

/-- Once a text is stored its name has a line. -/
theorem linesOf_ne_nil_of_addWithin {depth : Nat} {text : List Char}
    (h : addWithin name depth s text = (s', .ok keys)) : s'.linesOf name ≠ [] := by
  induction depth generalizing s s' text keys with
  | zero => exact linesOf_ne_nil_of_addPlain h
  | succ depth ih =>
    rw [addWithin] at h
    split at h
    · exact linesOf_ne_nil_of_addPlain h
    · cases h
    · next kind parts hparts =>
      exact linesOf_ne_nil_of_addSequenceWith (grows_addWithin name depth)
        (fun _ _ _ _ hadd => ih hadd) (parts_ne_nil_of_sequenceLiteral hparts) h

/-- Whatever is stored under a name, the name has lines afterwards. -/
theorem linesOf_ne_nil_of_add {text : List Char} (h : s.add name text = (s', .ok keys)) :
    s'.linesOf name ≠ [] :=
  linesOf_ne_nil_of_addWithin h

/-- A text is stored under its name alone, however deep its sequences are nested. -/
theorem growsUnder_addWithin (name : String) (depth : Nat) (s : LineStore) (text : List Char) :
    s.GrowsUnder name (addWithin name depth s text).1 := by
  induction depth generalizing s text with
  | zero => exact GrowsUnder.refl.lines (trim text)
  | succ depth ih =>
    rw [addWithin]
    split
    · exact GrowsUnder.refl.lines (trim text)
    · exact .refl
    · next kind parts hparts =>
      exact growsUnder_addSequenceWith (grows_addWithin name depth)
        (fun _ _ _ _ hadd => linesOf_ne_nil_of_addWithin hadd) ih s
        (parts_ne_nil_of_sequenceLiteral hparts) kind

/-- A text is stored under its name alone. -/
theorem growsUnder_add (s : LineStore) (name : String) (text : List Char) :
    s.GrowsUnder name (s.add name text).1 :=
  growsUnder_addWithin name (text.length + 1) s text

/-- A sequence is stored under its name alone. -/
theorem growsUnder_addSequence (s : LineStore) (name : String) {parts : List (List Char)}
    (hparts : parts ≠ []) (kind : SequenceKind) :
    s.GrowsUnder name (s.addSequence name parts kind).1 :=
  growsUnder_addSequenceWith (fun s part => s.grows_add name part)
    (fun _ _ _ _ hadd => linesOf_ne_nil_of_add hadd) (fun s part => s.growsUnder_add name part) s
    hparts kind

/-- Storing under one name is storing. -/
theorem GrowsUnder.exists_grows (h : s.GrowsUnder name s') : ∃ n, s.Grows n s' := by
  induction h with
  | refl => exact ⟨0, .refl 0⟩
  | lines _ text ih =>
    obtain ⟨n, hgrows⟩ := ih
    exact ⟨_, hgrows.lines name text⟩
  | counter _ kind _ ih =>
    obtain ⟨n, hgrows⟩ := ih
    exact ⟨n, hgrows.counter name kind⟩

/-- The lines of a name only become more. -/
theorem GrowsUnder.linesOf_prefix (h : s.GrowsUnder name s') (name' : String) :
    s.linesOf name' <+: s'.linesOf name' := by
  obtain ⟨n, hgrows⟩ := h.exists_grows
  exact hgrows.linesOf_prefix name'

/-- Other names keep their lines. -/
theorem GrowsUnder.linesOf_eq (h : s.GrowsUnder name s') {name' : String} (hne : name ≠ name') :
    s'.linesOf name' = s.linesOf name' := by
  induction h with
  | refl => rfl
  | lines _ text ih => rw [linesOf_addPlain, if_neg hne, ih]
  | counter _ kind _ ih => cases kind <;> exact ih

end LineStore

end StoryTape.Script
