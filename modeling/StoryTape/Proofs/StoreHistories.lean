import StoryTape.Proofs.GivenKeys
import StoryTape.Proofs.LineForms

/-!
# Histories of a line store

A store is asked for texts and sequences one after the other, and some of these calls fail, a
sequence even halfway. Whatever was asked of it, every line is one signal or trimmed and free of
signals, the ranges of a name follow one another, and no line is ever lost.
-/

namespace StoryTape.Script

open Text

namespace LineStore

variable {s s' : LineStore} {name : String} {text : List Char} {kind : SequenceKind}
  {parts : List (List Char)}

/-! ### Well-kept stores -/

/-- The lines are well-formed, and the ranges of a name cover at least two of its lines each and
stand in order. -/
structure Tidy (s : LineStore) : Prop where
  lines : ∀ name, ∀ line ∈ s.linesOf name, IsLine line.toList
  ordered : ∀ name, (s.rangesOf name).Pairwise fun r r' => r.stop ≤ r'.start
  within : ∀ name, ∀ r ∈ s.rangesOf name,
    r.start + 2 ≤ r.stop ∧ r.stop ≤ (s.linesOf name).length

/-- An empty store is tidy. -/
theorem tidy_empty : Tidy {} := ⟨nofun, fun _ => .nil, nofun⟩

/-- New lines come with a range behind all others. -/
theorem Tidy.addPlain (h : s.Tidy) (name : String) (text : List Char) :
    (s.addPlain name text).1.Tidy := by
  refine ⟨fun name' line hline => ?_, fun name' => ?_, fun name' r hr => ?_⟩
  · rw [linesOf_addPlain] at hline
    split at hline
    · rcases List.mem_append.mp hline with hline | hline
      · exact h.lines name line hline
      · exact isLine_of_mem_splitPieces hline
    · exact h.lines name' line hline
  · rw [rangesOf_addPlain, List.pairwise_append]
    -- The new range starts where the lines ended, and the others lie within these.
    refine ⟨h.ordered name', by split <;> simp, fun r hr r' hr' => ?_⟩
    split at hr'
    · next hname =>
      obtain rfl := List.mem_singleton.mp hr'
      rw [hname.1]
      exact (h.within name' r hr).2
    · cases hr'
  · rw [rangesOf_addPlain, List.mem_append] at hr
    have hlines := linesOf_addPlain s name name' text
    rcases hr with hr | hr
    · obtain ⟨hlength, hstop⟩ := h.within name' r hr
      refine ⟨hlength, Nat.le_trans hstop ?_⟩
      rw [hlines]
      split
      · next hname =>
        rw [List.length_append, hname]
        omega
      · exact Nat.le_refl _
    · split at hr
      · next hname =>
        obtain rfl := List.mem_singleton.mp hr
        rw [hlines, if_pos hname.1, List.length_append, hname.1]
        exact ⟨Nat.add_le_add_left hname.2 _, Nat.le_refl _⟩
      · cases hr

/-- A tidy store stays tidy as it grows. -/
theorem Tidy.grows {n : Nat} (h : s.Tidy) (hgrows : s.Grows n s') : s'.Tidy := by
  induction hgrows with
  | refl => exact h
  | lines _ name text ih => exact ih.addPlain name text
  | counter _ name kind ih => cases kind <;> exact ⟨ih.lines, ih.ordered, ih.within⟩

/-! ### Calls -/

/-- What a store is asked for. -/
inductive Call where
  /-- To store a text under a name. -/
  | text (name : String) (text : List Char)
  /-- To store a sequence of texts under a name. -/
  | sequence (name : String) (parts : List (List Char)) (kind : SequenceKind)

/-- What comes of a call. -/
def run (s : LineStore) : Call → LineStore × Checked (List String)
  | .text name text => s.add name text
  | .sequence name parts kind => s.addSequence name parts kind

/-- The store after some calls. A call that fails leaves what it has stored. -/
def after (s : LineStore) (calls : List Call) : LineStore :=
  calls.foldl (fun s call => (s.run call).1) s

/-- Later calls find the store that earlier ones leave. -/
theorem after_append (s : LineStore) (calls calls' : List Call) :
    s.after (calls ++ calls') = (s.after calls).after calls' :=
  List.foldl_append

/-- A call only adds to the store. -/
theorem exists_grows_run (s : LineStore) (call : Call) : ∃ n, s.Grows n (s.run call).1 := by
  cases call with
  | text name text => exact ⟨_, s.grows_add name text⟩
  | sequence name parts kind => exact ⟨_, s.grows_addSequence name parts kind⟩

/-- Calls only add to the store. -/
theorem exists_grows_after (s : LineStore) (calls : List Call) :
    ∃ n, s.Grows n (s.after calls) := by
  induction calls generalizing s with
  | nil => exact ⟨0, .refl 0⟩
  | cons call calls ih =>
    obtain ⟨n, hcall⟩ := s.exists_grows_run call
    obtain ⟨m, hcalls⟩ := ih (s.run call).1
    exact ⟨n + m, hcall.trans hcalls⟩

/-! ### Sequences -/

section Congruence

variable {add add' : LineStore → List Char → LineStore × Checked (List String)}

/-- Parts are stored alike by two ways that agree on each of them. -/
theorem addParts_congr (h : ∀ part ∈ parts, ∀ s, add s part = add' s part) :
    addParts add s parts = addParts add' s parts := by
  induction parts generalizing s with
  | nil => rfl
  | cons part parts ih =>
    rw [addParts, addParts, h part List.mem_cons_self]
    simp only [ih fun part' hpart' => h part' (List.mem_cons_of_mem _ hpart')]

/-- A sequence is stored alike by two ways that agree on its parts. -/
theorem addSequenceWith_congr (h : ∀ part ∈ parts, ∀ s, add s part = add' s part) :
    addSequenceWith add s name parts kind = addSequenceWith add' s name parts kind := by
  rw [addSequenceWith, addSequenceWith, addParts_congr h]

end Congruence

/-- The parts of a sequence are shorter than its text. -/
theorem length_part_lt (h : sequenceLiteral? (trim text) = some (some (kind, parts)))
    {part : List Char} (hpart : part ∈ parts) : part.length < text.length := by
  obtain ⟨hopen, rfl⟩ := parts_of_sequenceLiteral h
  have hwithin := (within_of_mem_splitEvery (List.cons_ne_nil _ _) hpart).1.length_le
  have htrim := length_trim_le text
  have hpos := hopen.length_le
  rw [List.length_take, List.length_drop] at hwithin
  rw [List.length_singleton] at hpos
  omega

/-- The length of a text is depth enough. -/
theorem addWithin_eq {depth depth' : Nat} (h : text.length < depth) (h' : text.length < depth') :
    addWithin name depth s text = addWithin name depth' s text := by
  induction depth generalizing depth' s text with
  | zero => cases h
  | succ depth ih =>
    cases depth' with
    | zero => cases h'
    | succ depth' =>
      rw [addWithin, addWithin]
      -- only the parts of a sequence use the depth, and they are shorter
      cases hliteral : sequenceLiteral? (trim text) with
      | none => rfl
      | some literal =>
        cases literal with
        | none => rfl
        | some literal =>
          refine addSequenceWith_congr fun part hpart s => ?_
          have hless := length_part_lt hliteral hpart
          exact ih (by omega) (by omega)

/-- A text that declares a sequence is stored as this sequence. -/
theorem add_of_sequence (h : sequenceLiteral? (trim text) = some (some (kind, parts))) :
    s.add name text = s.addSequence name parts kind := by
  have hstep : s.add name text =
      s.addSequenceWith (addWithin name text.length) name parts kind := by
    rw [add, addWithin, h]
  rw [hstep, addSequence]
  exact addSequenceWith_congr fun part hpart s =>
    addWithin_eq (length_part_lt h hpart) (Nat.lt_succ_self _)

/-- Whether every part is taken when they are stored one after the other. -/
def Takes (s : LineStore) (name : String) : List (List Char) → Prop
  | [] => True
  | part :: parts =>
    (∃ keys, (s.add name part).2 = .ok keys) ∧ (s.add name part).1.Takes name parts

/-- What comes of storing a sequence. -/
inductive PartByPart (s : LineStore) (name : String) (parts : List (List Char))
    (kind : SequenceKind) : LineStore × Checked (List String) → Prop
  /-- The name is taken, and nothing is stored. -/
  | taken (hname : s.contains name = true) :
      PartByPart s name parts kind (s, .error { cause := .sequenceExists name, phase := .text })
  /-- The parts are stored up to the first that fails, and what that one has stored stays. -/
  | failed {before rest : List (List Char)} {part : List Char} {s' : LineStore} {e : ScriptError}
      (hname : s.contains name = false) (hparts : parts = before ++ part :: rest)
      (hbefore : s.Takes name before)
      (hpart : (s.after (before.map (.text name))).add name part = (s', .error e)) :
      PartByPart s name parts kind (s', .error e)
  /-- All parts are stored, and the counter is noted. -/
  | stored (hname : s.contains name = false) (hparts : s.Takes name parts) :
      PartByPart s name parts kind
        ((s.after (parts.map (.text name))).addCounter name kind, .ok [name])

/-- Parts are all taken, or one of them is the first to be refused. -/
theorem addParts_cases (s : LineStore) (name : String) (parts : List (List Char)) :
    (s.Takes name parts ∧
      addParts (fun s part => s.add name part) s parts =
        (s.after (parts.map (.text name)), .ok ())) ∨
    ∃ before part rest s' e, parts = before ++ part :: rest ∧ s.Takes name before ∧
      (s.after (before.map (.text name))).add name part = (s', .error e) ∧
      addParts (fun s part => s.add name part) s parts = (s', .error e) := by
  induction parts generalizing s with
  | nil => exact .inl ⟨trivial, rfl⟩
  | cons part parts ih =>
    rw [addParts]
    split
    · next s₁ keys hpart =>
      have htakes {rest : List (List Char)} (hrest : s₁.Takes name rest) :
          s.Takes name (part :: rest) := by
        rw [Takes, hpart]
        exact ⟨⟨keys, rfl⟩, hrest⟩
      have hafter (rest : List (List Char)) :
          s.after ((part :: rest).map (.text name)) = s₁.after (rest.map (.text name)) := by
        rw [after, List.map_cons, List.foldl_cons, run, hpart, after]
      rcases ih s₁ with
        ⟨hrest, hstored⟩ | ⟨before, failing, rest, s', e, rfl, hbefore, hfailing, hfailed⟩
      · exact .inl ⟨htakes hrest, hafter parts ▸ hstored⟩
      · refine .inr ⟨part :: before, failing, rest, s', e, rfl, htakes hbefore, ?_, hfailed⟩
        rwa [hafter]
    · next s₁ e hpart => exact .inr ⟨[], part, parts, s₁, e, rfl, trivial, hpart, rfl⟩

/-- A sequence is stored part by part. -/
theorem partByPart_addSequence (s : LineStore) (name : String) (parts : List (List Char))
    (kind : SequenceKind) : PartByPart s name parts kind (s.addSequence name parts kind) := by
  rw [addSequence, addSequenceWith]
  split
  · next hname => exact .taken hname
  · next hname =>
    have hfree := Bool.eq_false_iff.mpr hname
    rcases s.addParts_cases name parts with
      ⟨hparts, hstored⟩ | ⟨before, part, rest, s', e, hparts, hbefore, hpart, hfailed⟩
    · rw [hstored]
      exact .stored hfree hparts
    · rw [hfailed]
      exact .failed hfree hparts hbefore hpart

/-! ### Texts -/

/-- What storing a text that is no sequence adds to a store. -/
structure Appends (s : LineStore) (name : String) (text : List Char) (s' : LineStore)
    (keys lines : List String) : Prop where
  linesOf : ∀ name', s'.linesOf name' = s.linesOf name' ++ if name = name' then lines else []
  solid : solid (lines.flatMap String.toList) = solid (withoutBreaks text)
  keys : ∀ i : Nat, keys.reverse[i]? = lines[i]?.map fun line =>
    if isSignal line then line else lineKey name ((s.linesOf name).length + i)
  ranges : ∀ name', s'.rangesOf name' = s.rangesOf name' ++
    if name = name' ∧ 1 < lines.length then
      [⟨(s.linesOf name).length, (s.linesOf name).length + lines.length⟩] else []

/-- A text that is no sequence is stored unless it holds nothing but breaks and blanks. -/
theorem add_plain_cases (s : LineStore) (name : String)
    (h : sequenceLiteral? (trim text) = none) :
    (solid (withoutBreaks text) = [] ∧
      s.add name text = (s, .error { cause := .emptyText name, phase := .text })) ∨
    solid (withoutBreaks text) ≠ [] ∧ ∃ s' keys lines,
      s.add name text = (s', .ok keys) ∧ Appends s name text s' keys lines := by
  have hsolid := solid_splitPieces (trim text)
  have hblank : splitPieces (trim text) = [] ↔ solid (withoutBreaks text) = [] := by
    rw [splitPieces_eq_nil_iff, solid_withoutBreaks_trim]
  rw [solid_withoutBreaks_trim] at hsolid
  rw [add_of_plain h]
  by_cases hnil : splitPieces (trim text) = []
  · refine .inl ⟨hblank.mp hnil, ?_⟩
    rw [addPlain, if_pos (List.isEmpty_iff.mpr hnil)]
  · refine .inr ⟨mt hblank.mpr hnil, (s.addPlain name (trim text)).1, _, splitPieces (trim text),
      ?_, ?_, hsolid, getElem?_keysFrom name _ _,
      fun name' => rangesOf_addPlain s name name' (trim text)⟩
    · rw [addPlain, if_neg (mt List.isEmpty_iff.mp hnil)]
    · intro name'
      rw [linesOf_addPlain]
      split
      · next hname => rw [hname]
      · rw [List.append_nil]

/-! ### Histories -/

/-- **Nothing is lost.** Whatever texts and sequences a store is asked for, also such as fail, the
lines of a name stay as they are and where they are. Each line is one signal or trimmed text
without a whole signal, and the ranges of a name cover two of its lines or more and follow one
another. A text that is no sequence is taken unless it holds nothing but breaks and blanks. Its
lines hold all of it, breaks and blanks apart, its keys are those of its lines from the last to the
first, and a range is noted of them when they are several. A sequence is stored part by part, each
part as a text. -/
theorem history_kept (calls more : List Call) :
    (∀ name, (after {} calls).linesOf name <+: (after {} (calls ++ more)).linesOf name) ∧
    (after {} calls).Tidy ∧
    (∀ name, ∀ line ∈ (after {} calls).linesOf name,
      isSignal line = true ↔ IsOneSignal line.toList) ∧
    (∀ name {text}, sequenceLiteral? (trim text) = none →
      (solid (withoutBreaks text) = [] ∧ (after {} calls).add name text =
        (after {} calls, .error { cause := .emptyText name, phase := .text })) ∨
      solid (withoutBreaks text) ≠ [] ∧ ∃ s' keys lines,
        (after {} calls).add name text = (s', .ok keys) ∧
          Appends (after {} calls) name text s' keys lines) ∧
    (∀ name {text parts kind}, sequenceLiteral? (trim text) = some (some (kind, parts)) →
      (after {} calls).add name text = (after {} calls).addSequence name parts kind) ∧
    ∀ name parts kind, PartByPart (after {} calls) name parts kind
      ((after {} calls).addSequence name parts kind) := by
  obtain ⟨n, hgrows⟩ := exists_grows_after {} calls
  obtain ⟨m, hmore⟩ := exists_grows_after (after {} calls) more
  have htidy := tidy_empty.grows hgrows
  refine ⟨fun name => ?_, htidy, fun name line hline => (htidy.lines name line hline).isSignal_iff,
    fun name _ hplain => add_plain_cases _ name hplain, fun name _ _ _ hliteral =>
    add_of_sequence hliteral, fun name parts kind => partByPart_addSequence _ name parts kind⟩
  rw [after_append]
  exact hmore.linesOf_prefix name

/-! ### A storm

The second part of a sequence turns out to be blank, and the lines of the first stay. -/

namespace Storm

/-- A text with a signal, and a sequence that fails at its second part. -/
def calls : List Call :=
  [.text "ROAR" "Run!</> <$shake/>Hide!".toList, .text "TALK" "(!<Hush.</>Listen.>< >)".toList]

/-- One more line of the first text. -/
def more : List Call := [.text "ROAR" "It comes back.".toList]

end Storm

/-- What was stored before and during the failure is there after the storm. -/
theorem storm_kept :
    (after {} Storm.calls).linesOf "ROAR" = ["Run!", "<$shake/>", "Hide!"] ∧
      (after {} Storm.calls).linesOf "TALK" = ["Hush.", "Listen."] ∧
      (after {} Storm.calls).rangesOf "TALK" = [⟨0, 2⟩] ∧ (after {} Storm.calls).onces = [] ∧
      ["Run!", "<$shake/>", "Hide!"] <+: (after {} (Storm.calls ++ Storm.more)).linesOf "ROAR" ∧
      IsOneSignal "<$shake/>".toList := by
  have hlines : (after {} Storm.calls).linesOf "ROAR" = ["Run!", "<$shake/>", "Hide!"] := by
    decide +kernel
  obtain ⟨hkept, -, hsignals, -⟩ := history_kept Storm.calls Storm.more
  have hroar := hkept "ROAR"
  rw [hlines] at hroar
  have hshake := hsignals "ROAR" "<$shake/>" (by rw [hlines]; simp)
  exact ⟨hlines, by decide +kernel, by decide +kernel, by decide +kernel, hroar,
    hshake.mp (by decide)⟩

end LineStore

end StoryTape.Script
