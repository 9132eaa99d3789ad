import StoryTape.Proofs.LineKeys
import StoryTape.Proofs.StoredLines

/-!
# Keys that a store gives out

A store that takes a text gives out keys for it. Each of them is a signal or the key of a line that
was just stored, and since lines are only ever added, it stays the key of a line: in the text book
that the store becomes, every key it ever gave out is found.
-/

namespace StoryTape.Script

open Text

/-- A text that is split has a piece. -/
theorem splitEvery_ne_nil (marker s : List Char) : splitEvery marker s ≠ [] := by
  unfold splitEvery
  generalize 0 = skip
  fun_induction splitEveryFrom marker skip s with
  | case1 => exact List.cons_ne_nil _ _
  | case2 skip c s ih => exact ih
  | case3 c s h ih => exact List.cons_ne_nil _ _
  | case4 c s h ih => cases hpieces : splitEveryFrom marker 0 s <;> simp [consPiece]

/-- A sequence that is written out has a part. -/
theorem parts_ne_nil_of_sequenceLiteral {text : List Char} {kind : SequenceKind}
    {parts : List (List Char)} (h : sequenceLiteral? text = some (some (kind, parts))) :
    parts ≠ [] := by
  obtain ⟨-, rfl⟩ := parts_of_sequenceLiteral h
  exact splitEvery_ne_nil _ _

/-- A name under which nothing is dropped from the end of a key. -/
def IsBare (name : String) : Prop := bareKey name = name

namespace LineStore

variable {s s' : LineStore} {name key : String} {keys : List String}

/-- A signal, or the key of a stored line. -/
def Keyed (s : LineStore) (key : String) : Prop :=
  isSignal key = true ∨
    ∃ name index, IsBare name ∧ key = lineKey name index ∧ index < (s.linesOf name).length

/-- A name that has a line is the key of the first. -/
theorem keyed_name (hname : IsBare name) (h : s.linesOf name ≠ []) : s.Keyed name := by
  have hlength := List.length_pos_iff.mpr h
  exact .inr ⟨name, 0, hname, by rw [lineKey, if_pos rfl], hlength⟩

/-- So keys stay keys. -/
theorem Keyed.grows {n : Nat} (h : s.Keyed key) (hgrows : s.Grows n s') : s'.Keyed key := by
  rcases h with hsignal | ⟨name, index, hname, hkey, hindex⟩
  · exact .inl hsignal
  · have hlength := (hgrows.linesOf_prefix name).length_le
    exact .inr ⟨name, index, hname, hkey, by omega⟩

/-- What comes of storing a text: the name has a line, and what was given out are keys. -/
structure Gives (name : String) (s' : LineStore) (keys : List String) : Prop where
  lines : s'.linesOf name ≠ []
  keyed : ∀ key ∈ keys, s'.Keyed key

/-- Storing a plain text gives keys of stored lines. -/
theorem gives_addPlain (hname : IsBare name) {text : List Char}
    (h : s.addPlain name text = (s', .ok keys)) : Gives name s' keys := by
  have hlines := linesOf_of_addPlain h
  rw [addPlain] at h
  split at h
  · cases h
  · next hpieces =>
    obtain ⟨-, hkeys⟩ := Prod.mk.inj h
    cases hkeys
    have hne : splitPieces text ≠ [] := fun hnil => hpieces (List.isEmpty_iff.mpr hnil)
    refine ⟨hlines ▸ List.append_ne_nil_of_right_ne_nil _ hne, fun key hkey => ?_⟩
    rw [keysFrom, List.mem_reverse, List.mem_map] at hkey
    obtain ⟨⟨line, i⟩, hline, rfl⟩ := hkey
    obtain ⟨-, hto, -⟩ := List.mem_zipIdx hline
    dsimp only
    split
    · next hsignal => exact .inl hsignal
    · refine .inr ⟨name, i, hname, rfl, ?_⟩
      rw [hlines, List.length_append]
      exact hto

section Sequences

variable {add : LineStore → List Char → LineStore × Checked (List String)}

/-- Once parts are stored the name has a line. -/
theorem linesOf_ne_nil_of_addParts
    (hgrows : ∀ (s : LineStore) part, s.Grows part.length (add s part).1)
    (hadd : ∀ s part s' keys, add s part = (s', .ok keys) → s'.linesOf name ≠ [])
    {parts : List (List Char)} (hparts : parts ≠ []) (h : addParts add s parts = (s', .ok ())) :
    s'.linesOf name ≠ [] := by
  cases parts with
  | nil => exact absurd rfl hparts
  | cons part parts =>
    rw [addParts] at h
    split at h
    · next s₁ keys hpart =>
      have hfirst := hadd s part s₁ keys hpart
      have hrest := grows_addParts hgrows s₁ parts
      rw [h] at hrest
      intro hnil
      exact hfirst (List.prefix_nil.mp (hnil ▸ hrest.linesOf_prefix name))
    · cases h

/-- Storing a sequence gives keys of stored lines if storing its parts does. -/
theorem gives_addSequenceWith (hname : IsBare name)
    (hgrows : ∀ (s : LineStore) part, s.Grows part.length (add s part).1)
    (hadd : ∀ s part s' keys, add s part = (s', .ok keys) → Gives name s' keys)
    {parts : List (List Char)} (hparts : parts ≠ []) {kind : SequenceKind}
    (h : addSequenceWith add s name parts kind = (s', .ok keys)) : Gives name s' keys := by
  rw [addSequenceWith] at h
  split at h
  · cases h
  · split at h
    · next s₁ _ hstored =>
      cases h
      have hlines := linesOf_ne_nil_of_addParts hgrows
        (fun s part s' keys hpart => (hadd s part s' keys hpart).lines) hparts hstored
      have hsame : (s₁.addCounter name kind).linesOf name = s₁.linesOf name := by
        cases kind <;> rfl
      rw [← hsame] at hlines
      refine ⟨hlines, fun key hkey => ?_⟩
      obtain rfl := List.mem_singleton.mp hkey
      exact keyed_name hname hlines
    · cases h

end Sequences

/-- Storing a text gives keys of stored lines, however deep its sequences are nested. -/
theorem gives_addWithin (hname : IsBare name) {depth : Nat} {text : List Char}
    (h : addWithin name depth s text = (s', .ok keys)) : Gives name s' keys := by
  induction depth generalizing s s' text keys with
  | zero => exact gives_addPlain hname h
  | succ depth ih =>
    rw [addWithin] at h
    split at h
    · exact gives_addPlain hname h
    · cases h
    · next kind parts hparts =>
      exact gives_addSequenceWith hname (grows_addWithin name depth) (fun _ _ _ _ hadd => ih hadd)
        (parts_ne_nil_of_sequenceLiteral hparts) h

/-- The keys of a stored text are keys of lines. -/
theorem gives_add (hname : IsBare name) {text : List Char}
    (h : s.add name text = (s', .ok keys)) : Gives name s' keys :=
  gives_addWithin hname h

/-- Storing a sequence gives keys of stored lines. -/
theorem gives_addSequence (hname : IsBare name) {parts : List (List Char)} (hparts : parts ≠ [])
    {kind : SequenceKind} (h : s.addSequence name parts kind = (s', .ok keys)) :
    Gives name s' keys :=
  gives_addSequenceWith hname (fun s part => s.grows_add name part)
    (fun _ _ _ _ hadd => gives_add hname hadd) hparts h

/-- In the text book of the store every key is found. -/
theorem Keyed.hasLine (h : s.Keyed key) {routes : Dict DialogueNode}
    (hfits : (s.toBook routes).Fits) : (s.toBook routes).hasLine key = true := by
  rcases h with hsignal | ⟨name, index, hname, rfl, hindex⟩
  · exact TextBook.hasLine_of_isSignal hsignal
  · refine TextBook.hasLine_lineKey hfits ?_ hindex
    rw [TextBook.hasLine_eq_true_iff, TextBook.line, hname]
    split
    · exact ⟨_, rfl⟩
    · split
      · next first _ => exact ⟨first, rfl⟩
      · next hnone =>
        have hnil : s.linesOf name = [] := List.head?_eq_none_iff.mp hnone
        rw [hnil] at hindex
        exact absurd hindex (Nat.not_lt_zero _)

end LineStore

end StoryTape.Script
