import Mathlib.Data.List.Infix
import StoryTape.Proofs.GivenKeys
import StoryTape.Proofs.NamedCounters

/-!
# Texts that are kept

Storing a text adds its lines behind those of its name, all parts of a sequence one after the other.
A text that is no sequence is told by the keys of these lines, a sequence by its name, under which a
counter is noted. Both stay so while more texts are stored, so what was stored of a text is found
again wherever the store ends up.
-/

namespace StoryTape.Script

open Text

/-- The lines of a text in which sequences are nested at most `depth` deep. -/
def linesWithin : Nat → List Char → List String
  | 0, text => splitPieces (trim text)
  | depth + 1, text =>
    match sequenceLiteral? (trim text) with
    | some (some (_, parts)) => parts.flatMap (linesWithin depth)
    | _ => splitPieces (trim text)

/-- The lines that storing a text adds. -/
def textLines (text : List Char) : List String := linesWithin (text.length + 1) text

/-- A text that is no sequence adds the lines it is split into. -/
theorem textLines_of_plain {text : List Char} (h : sequenceLiteral? (trim text) = none) :
    textLines text = splitPieces (trim text) := by
  rw [textLines, linesWithin, h]

namespace LineStore

variable {s s' : LineStore} {name : String} {text : List Char} {keys : List String}

/-- The name of a sequence whose counter is noted. -/
def Noted (s : LineStore) (name : String) : Prop := ∃ kind, counterTag name 0 ∈ s.counters kind

/-- A name whose counter was just added is noted. -/
theorem noted_addCounter (s : LineStore) (name : String) (kind : SequenceKind) :
    (s.addCounter name kind).Noted name := by
  refine ⟨kind, ?_⟩
  rw [counterTag_zero]
  cases kind <;> simp [addCounter, counters]

/-- Counters stay noted. -/
theorem Noted.grows {n : Nat} (h : s.Noted name) (hgrows : s.Grows n s') : s'.Noted name := by
  induction hgrows with
  | refl => exact h
  | lines _ name' text ih =>
    obtain ⟨kind, hkind⟩ := ih
    exact ⟨kind, (counters_addPlain _ name' text kind).symm ▸ hkind⟩
  | counter _ name' kind' ih =>
    obtain ⟨kind, hkind⟩ := ih
    refine ⟨kind, ?_⟩
    cases kind <;> cases kind' <;> simp_all [addCounter, counters]

/-! ### What storing adds -/

section Sequences

variable {add : LineStore → List Char → LineStore × Checked (List String)}
  {lines : List Char → List String} {parts : List (List Char)}

/-- Parts add their lines one after the other. -/
theorem linesOf_addParts
    (hadd : ∀ s part s' keys, add s part = (s', .ok keys) →
      s'.linesOf name = s.linesOf name ++ lines part)
    (h : addParts add s parts = (s', .ok ())) :
    s'.linesOf name = s.linesOf name ++ parts.flatMap lines := by
  induction parts generalizing s with
  | nil =>
    cases h
    exact (List.append_nil _).symm
  | cons part parts ih =>
    rw [addParts] at h
    split at h
    · next s₁ keys hpart =>
      rw [ih h, hadd s part s₁ keys hpart, List.append_assoc, List.flatMap_cons]
    · cases h

/-- A sequence has all the lines of its name, which is its only key. -/
theorem addSequenceWith_eq_ok {kind : SequenceKind}
    (hadd : ∀ s part s' keys, add s part = (s', .ok keys) →
      s'.linesOf name = s.linesOf name ++ lines part)
    (h : addSequenceWith add s name parts kind = (s', .ok keys)) :
    s.linesOf name = [] ∧ s'.linesOf name = parts.flatMap lines ∧ keys = [name] ∧
      s'.Noted name := by
  rw [addSequenceWith] at h
  split at h
  · cases h
  · next hnew =>
    have hnone : s.linesOf name = [] := by
      rw [contains, Dict.contains, Bool.not_eq_true, Option.isSome_eq_false_iff,
        Option.isNone_iff_eq_none] at hnew
      rw [linesOf, hnew, Option.getD_none]
    split at h
    · next s₁ _ hparts =>
      cases h
      have hlines := linesOf_addParts hadd hparts
      rw [hnone, List.nil_append] at hlines
      have hsame : (s₁.addCounter name kind).linesOf name = s₁.linesOf name := by
        cases kind <;> rfl
      exact ⟨hnone, hsame.trans hlines, rfl, s₁.noted_addCounter name kind⟩
    · cases h

end Sequences

/-- A text adds its lines behind those of the name. -/
theorem linesOf_addWithin {depth : Nat} (h : addWithin name depth s text = (s', .ok keys)) :
    s'.linesOf name = s.linesOf name ++ linesWithin depth text := by
  induction depth generalizing s s' text keys with
  | zero => exact linesOf_of_addPlain h
  | succ depth ih =>
    rw [addWithin] at h
    rw [linesWithin]
    split at h
    · next hplain =>
      rw [hplain]
      exact linesOf_of_addPlain h
    · cases h
    · next kind parts hparts =>
      obtain ⟨hnone, hlines, -, -⟩ := addSequenceWith_eq_ok (fun _ _ _ _ hadd => ih hadd) h
      rw [hparts, hlines, hnone, List.nil_append]

/-- The lines of a text come behind those that its name has. -/
theorem linesOf_add (h : s.add name text = (s', .ok keys)) :
    s'.linesOf name = s.linesOf name ++ textLines text :=
  linesOf_addWithin h

/-- What is stored of several texts under a name. -/
theorem addSequence_eq_ok {parts : List (List Char)} {kind : SequenceKind}
    (h : s.addSequence name parts kind = (s', .ok keys)) :
    s'.linesOf name = parts.flatMap textLines ∧ keys = [name] ∧ s'.Noted name :=
  (addSequenceWith_eq_ok (fun _ _ _ _ hadd => linesOf_add hadd) h).2

end LineStore

/-! ### Keys of a text -/

/-- What is kept of a text under a name, with its keys in reading order. Where lines and sequences
are kept is left open: in a store that grows, or in the tape that comes of it. -/
inductive Kept (linesOf : String → List String) (sequence : String → Prop) (name : String)
    (text : List Char) : List String → Prop
  /-- The text is no sequence: each of its lines has a key. -/
  | lines (start : Nat) (hplain : sequenceLiteral? (trim text) = none)
      (hlines : splitPieces (trim text) <+: (linesOf name).drop start) :
      Kept linesOf sequence name text
        (LineStore.keysFrom name start (splitPieces (trim text))).reverse
  /-- The text is a sequence: its name stands for all of it. -/
  | sequence (hliteral : sequenceLiteral? (trim text) ≠ none)
      (hlines : textLines text <+: linesOf name) (hsequence : sequence name) :
      Kept linesOf sequence name text [name]

/-- What is kept of an answer: several sentences are a sequence. -/
inductive KeptAnswer (linesOf : String → List String) (sequence : String → Prop) (name : String)
    (text : List Char) : List String → Prop
  /-- The answer is one text. -/
  | text {keys : List String} (hbar : '|' ∉ text) (hkept : Kept linesOf sequence name text keys) :
      KeptAnswer linesOf sequence name text keys
  /-- The sentences of the answer are shown in turn. -/
  | loop (hbar : '|' ∈ text)
      (hlines : ((splitChar '|' text).map trim).flatMap textLines <+: linesOf name)
      (hsequence : sequence name) : KeptAnswer linesOf sequence name text [name]

section Mono

variable {linesOf linesOf' : String → List String} {sequence sequence' : String → Prop}
  {name : String} {text : List Char} {keys : List String}

/-- A text is kept wherever lines are only added and sequences stay sequences. -/
theorem Kept.mono (h : Kept linesOf sequence name text keys)
    (hlinesOf : linesOf name <+: linesOf' name) (hsequence : sequence name → sequence' name) :
    Kept linesOf' sequence' name text keys := by
  cases h with
  | lines start hplain hlines => exact .lines start hplain (hlines.trans (hlinesOf.drop start))
  | sequence hliteral hlines hname =>
    exact .sequence hliteral (hlines.trans hlinesOf) (hsequence hname)

/-- What is kept of an answer stays when more is stored. -/
theorem KeptAnswer.mono (h : KeptAnswer linesOf sequence name text keys)
    (hlinesOf : linesOf name <+: linesOf' name) (hsequence : sequence name → sequence' name) :
    KeptAnswer linesOf' sequence' name text keys := by
  cases h with
  | text hbar hkept => exact .text hbar (hkept.mono hlinesOf hsequence)
  | loop hbar hlines hname => exact .loop hbar (hlines.trans hlinesOf) (hsequence hname)

end Mono

namespace LineStore

variable {s s' : LineStore} {name : String} {text : List Char} {keys : List String}

/-- What a store keeps of a text it took. -/
theorem kept_add (h : s.add name text = (s', .ok keys)) :
    Kept s'.linesOf s'.Noted name text keys.reverse := by
  have hlines := linesOf_add h
  cases hliteral : sequenceLiteral? (trim text) with
  | none =>
    rw [textLines_of_plain hliteral] at hlines
    rw [add_of_plain hliteral, addPlain] at h
    split at h
    · cases h
    · obtain ⟨-, hkeys⟩ := Prod.mk.inj h
      cases hkeys
      refine .lines _ hliteral ?_
      rw [hlines, List.drop_left]
  | some literal =>
    simp only [add, addWithin, hliteral] at h
    cases literal with
    | none => cases h
    | some literal =>
      obtain ⟨hnone, -, rfl, hnoted⟩ :=
        addSequenceWith_eq_ok (fun _ _ _ _ hadd => linesOf_addWithin hadd) h
      rw [hnone, List.nil_append] at hlines
      exact .sequence (hliteral ▸ Option.some_ne_none _) (hlines ▸ List.prefix_refl _) hnoted

/-- What a store keeps of an answer it took. -/
theorem kept_storeAnswer (h : Outline.storeAnswer name text s = (s', .ok keys)) :
    KeptAnswer s'.linesOf s'.Noted name text keys.reverse := by
  rw [Outline.storeAnswer] at h
  split at h
  · next hbar =>
    obtain ⟨hlines, rfl, hnoted⟩ := addSequence_eq_ok h
    exact .loop (List.contains_iff_mem.mp hbar) (hlines ▸ List.prefix_refl _) hnoted
  · next hbar => exact .text (fun hmem => hbar (List.contains_iff_mem.mpr hmem)) (kept_add h)

end LineStore

end StoryTape.Script
