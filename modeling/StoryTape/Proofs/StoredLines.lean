import StoryTape.Proofs.AscendingLists
import StoryTape.Proofs.Pieces

/-!
# How a line store grows

However texts and sequences are nested, storing them takes two kinds of steps: the lines of a text
are added under a name, and the counter of a sequence is noted. A sequence that turns out to be
wrong halfway has taken some of these steps and no other. What both steps keep therefore holds of
every store: each range of lines lies within the lines of its name, and a name gets no more lines
than characters are stored.
-/

namespace StoryTape

open Text

namespace TextBook

/-- The ranges recorded under a name. -/
def rangesOf (b : TextBook) (name : String) : List LineRange := (b.ranges.get? name).getD []

/-- Every range lies within the lines of its name. -/
def Ranged (b : TextBook) : Prop :=
  ∀ name, ∀ r ∈ b.rangesOf name, r.start ≤ r.stop ∧ r.stop ≤ b.lineCount name

end TextBook

namespace Script.LineStore

/-- The stores that come of storing texts of at most so many characters. -/
inductive Grows (s : LineStore) : Nat → LineStore → Prop
  /-- Nothing is stored. -/
  | refl (n : Nat) : Grows s n s
  /-- The lines of a text are added under a name. -/
  | lines {n : Nat} {s' : LineStore} (h : Grows s n s') (name : String) (text : List Char) :
      Grows s (n + text.length) (s'.addPlain name text).1
  /-- The counter of a sequence is noted. -/
  | counter {n : Nat} {s' : LineStore} (h : Grows s n s') (name : String) (kind : SequenceKind) :
      Grows s n (s'.addCounter name kind)

/-- A store that grows within some characters grows within more. -/
theorem Grows.mono {s s' : LineStore} {n m : Nat} (h : s.Grows n s') (hle : n ≤ m) :
    s.Grows m s' := by
  induction h generalizing m with
  | refl => exact .refl m
  | lines _ name text ih =>
    obtain ⟨k, rfl⟩ := Nat.exists_eq_add_of_le (Nat.le_trans (Nat.le_add_left _ _) hle)
    rw [Nat.add_comm]
    exact (ih (by omega)).lines name text
  | counter _ name kind ih => exact (ih hle).counter name kind

/-- A store that grows twice grows by the characters of both. -/
theorem Grows.trans {s s' s'' : LineStore} {n m : Nat} (h : s.Grows n s') (h' : s'.Grows m s'') :
    s.Grows (n + m) s'' := by
  induction h' with
  | refl m => exact h.mono (Nat.le_add_right n m)
  | lines _ name text ih => exact Nat.add_assoc n _ _ ▸ ih.lines name text
  | counter _ name kind ih => exact ih.counter name kind

/-- Storing the lines of a trimmed text takes no more than the text. -/
theorem grows_addPlain_trim (s : LineStore) (name : String) (text : List Char) :
    s.Grows text.length (s.addPlain name (trim text)).1 := by
  have hlength := length_trim_le text
  exact ((Grows.refl 0).lines name (trim text)).mono (by omega)

section Sequences

variable {add : LineStore → List Char → LineStore × Checked (List String)}

/-- Parts take no more characters than they have if each of them does not. -/
theorem grows_addParts (hadd : ∀ (s : LineStore) part, s.Grows part.length (add s part).1)
    (s : LineStore) (parts : List (List Char)) :
    s.Grows (totalLength parts) (addParts add s parts).1 := by
  induction parts generalizing s with
  | nil => exact .refl 0
  | cons part parts ih =>
    have hpart := hadd s part
    rw [addParts]
    split
    · next s' _ hstored =>
      rw [hstored] at hpart
      exact hpart.trans (ih s')
    · next s' e hstored =>
      rw [hstored] at hpart
      exact hpart.mono (Nat.le_add_right _ _)

/-- A sequence takes no more characters than its parts have if none of these does. -/
theorem grows_addSequenceWith (hadd : ∀ (s : LineStore) part, s.Grows part.length (add s part).1)
    (s : LineStore) (name : String) (parts : List (List Char)) (kind : SequenceKind) :
    s.Grows (totalLength parts) (addSequenceWith add s name parts kind).1 := by
  have hparts := grows_addParts hadd s parts
  rw [addSequenceWith]
  split
  · exact .refl _
  · split
    · next s' _ hstored =>
      rw [hstored] at hparts
      exact hparts.counter name kind
    · next s' e hstored =>
      rw [hstored] at hparts
      exact hparts

end Sequences

/-- A text takes no more characters than it has, however deep its sequences are nested. -/
theorem grows_addWithin (name : String) (depth : Nat) (s : LineStore) (text : List Char) :
    s.Grows text.length (addWithin name depth s text).1 := by
  induction depth generalizing s text with
  | zero => exact s.grows_addPlain_trim name text
  | succ depth ih =>
    rw [addWithin]
    split
    · exact s.grows_addPlain_trim name text
    · exact .refl _
    · next kind parts hparts =>
      have hlength := Nat.le_trans (totalLength_sequenceLiteral hparts) (length_trim_le text)
      exact (grows_addSequenceWith ih s name parts kind).mono hlength

/-- Storing a text takes no more characters than it has. -/
theorem grows_add (s : LineStore) (name : String) (text : List Char) :
    s.Grows text.length (s.add name text).1 :=
  grows_addWithin name (text.length + 1) s text

/-- Storing a sequence takes no more characters than its parts have. -/
theorem grows_addSequence (s : LineStore) (name : String) (parts : List (List Char))
    (kind : SequenceKind) : s.Grows (totalLength parts) (s.addSequence name parts kind).1 :=
  grows_addSequenceWith (fun s part => s.grows_add name part) s name parts kind

/-! ### What adding lines changes -/

/-- The ranges recorded under a name. -/
def rangesOf (s : LineStore) (name : String) : List LineRange := (s.ranges.get? name).getD []

/-- New lines come behind those that the name has. -/
theorem linesOf_addPlain (s : LineStore) (name name' : String) (text : List Char) :
    (s.addPlain name text).1.linesOf name' =
      if name = name' then s.linesOf name ++ splitPieces text else s.linesOf name' := by
  rw [addPlain]
  split
  · next hblank =>
    rw [List.isEmpty_iff.mp hblank, List.append_nil]
    split
    · next hname => rw [hname]
    · rfl
  · rw [linesOf, Dict.get?_insert]
    split <;> rfl

/-- A plain text adds the lines it is split into, even when it is refused. -/
theorem linesOf_of_addPlain {s s' : LineStore} {name : String} {text : List Char}
    {given : Checked (List String)} (h : s.addPlain name text = (s', given)) :
    s'.linesOf name = s.linesOf name ++ splitPieces text := by
  have hlines := linesOf_addPlain s name name text
  rwa [h, if_pos rfl] at hlines

/-- Lines stay where they are. -/
theorem Grows.linesOf_prefix {s s' : LineStore} {n : Nat} (h : s.Grows n s') (name : String) :
    s.linesOf name <+: s'.linesOf name := by
  induction h with
  | refl => exact List.prefix_refl _
  | lines _ name' text ih =>
    rw [linesOf_addPlain]
    split
    · next hname =>
      subst hname
      exact ih.trans (List.prefix_append _ _)
    · exact ih
  | counter _ name' kind ih => cases kind <;> exact ih

/-- A name gets at most as many lines as characters are stored. -/
theorem Grows.length_linesOf_le {s s' : LineStore} {n : Nat} (h : s.Grows n s') (name : String) :
    (s'.linesOf name).length ≤ (s.linesOf name).length + n := by
  induction h with
  | refl n => exact Nat.le_add_right _ n
  | lines _ name' text ih =>
    rw [linesOf_addPlain]
    split
    · next hname =>
      have hpieces := length_splitPieces_le text
      rw [List.length_append, hname]
      omega
    · omega
  | counter _ name' kind ih => cases kind <;> exact ih

/-- The range of several lines that are added together comes behind those that the name has. -/
theorem rangesOf_addPlain (s : LineStore) (name name' : String) (text : List Char) :
    (s.addPlain name text).1.rangesOf name' =
      s.rangesOf name' ++ if name = name' ∧ 1 < (splitPieces text).length then
        [⟨(s.linesOf name).length, (s.linesOf name).length + (splitPieces text).length⟩]
      else [] := by
  rw [addPlain]
  split
  · next hblank => simp [List.isEmpty_iff.mp hblank]
  · by_cases hmany : 1 < (splitPieces text).length
    · simp only [rangesOf, if_pos hmany, Dict.get?_insert]
      by_cases hname : name = name'
      · subst hname
        simp [hmany]
      · simp [hname]
    · simp [rangesOf, hmany]

/-- The only new range is that of the lines just added. -/
theorem mem_rangesOf_addPlain {s : LineStore} {name name' : String} {text : List Char}
    {r : LineRange} (h : r ∈ (s.addPlain name text).1.rangesOf name') :
    r ∈ s.rangesOf name' ∨ name = name' ∧
      r = ⟨(s.linesOf name).length, (s.linesOf name).length + (splitPieces text).length⟩ := by
  rw [rangesOf_addPlain, List.mem_append] at h
  refine h.imp_right fun hnew => ?_
  split at hnew
  · next hname => exact ⟨hname.1, List.mem_singleton.mp hnew⟩
  · cases hnew

/-! ### Ranges -/

/-- Every range lies within the lines stored under its name. -/
def Ranged (s : LineStore) : Prop :=
  ∀ name, ∀ r ∈ s.rangesOf name, r.start ≤ r.stop ∧ r.stop ≤ (s.linesOf name).length

/-- A store whose ranges lie within its lines makes such a book. -/
theorem Ranged.toBook {s : LineStore} (h : s.Ranged) (routes : Dict DialogueNode) :
    (s.toBook routes).Ranged := h

/-- An empty store has no ranges. -/
theorem ranged_empty : Ranged {} := nofun

/-- A new range ends with the lines that were added with it. -/
theorem Ranged.addPlain {s : LineStore} (h : s.Ranged) (name : String) (text : List Char) :
    (s.addPlain name text).1.Ranged := by
  intro name' r hr
  rw [linesOf_addPlain]
  rcases mem_rangesOf_addPlain hr with hr | ⟨hname, hr⟩
  · obtain ⟨hstart, hstop⟩ := h name' r hr
    refine ⟨hstart, ?_⟩
    split
    · next hname =>
      subst hname
      rw [List.length_append]
      omega
    · exact hstop
  · rw [if_pos hname, List.length_append, hr]
    exact ⟨Nat.le_add_right _ _, Nat.le_refl _⟩

/-- Ranges stay within their lines however the store grows. -/
theorem Ranged.grows {s s' : LineStore} {n : Nat} (h : s.Ranged) (hgrows : s.Grows n s') :
    s'.Ranged := by
  induction hgrows with
  | refl => exact h
  | lines _ name text ih => exact ih.addPlain name text
  | counter _ name kind ih => cases kind <;> exact ih

end Script.LineStore

end StoryTape
