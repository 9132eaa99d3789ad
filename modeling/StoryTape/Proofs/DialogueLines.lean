import Mathlib.Data.List.Forall2
import StoryTape.Proofs.KeptTexts
import StoryTape.Proofs.OutlineNodes

/-!
# Dialogue as it is written

The lines of a block of dialogue say what is to be shown: a choice has a label and a full text, and
it is answered when the line right after it is one deeper. The outline of the block represents it
line by line, so whatever a choice leads to is spoken by the script: its own text where nobody
answers, and else the first line under its name and then the answer.
-/

namespace StoryTape.Script

open Text

/-! ### Lines of a script -/

namespace ScriptLine

/-- The depth and the content of a line of dialogue that is no dead end. -/
def spoken? (l : ScriptLine) : Option (Nat × List Char) :=
  match l.kind, splitHyphens (trim l.content) with
  | .route, some (depth, false, content) => some (depth, content)
  | _, _ => none

/-- The depth, the label and the full text of a choice. -/
def choice? (l : ScriptLine) : Option (Nat × List Char × List Char) :=
  match l.spoken? with
  | some (depth, content) =>
    if depth % 2 = 0 then (splitChoice (takeGroups content).2.2).map fun texts => (depth, texts)
    else none
  | none => none

/-- The depth and the text of an answer. -/
def answer? (l : ScriptLine) : Option (Nat × List Char) :=
  match l.spoken? with
  | some (depth, content) => if depth % 2 = 1 then some (depth, content) else none
  | none => none

variable {l : ScriptLine} {depth : Nat} {content : List Char}

/-- A line of dialogue speaks at its depth when it is no dead end. -/
theorem spoken?_eq_some (hkind : l.kind = .route)
    (hsplit : splitHyphens (trim l.content) = some (depth, false, content)) :
    l.spoken? = some (depth, content) := by
  simp only [spoken?, hkind, hsplit]

/-- A dead end speaks nothing. -/
theorem spoken?_of_deadEnd (hsplit : splitHyphens (trim l.content) = some (depth, true, content)) :
    l.spoken? = none := by
  rw [spoken?, hsplit]
  cases l.kind <;> rfl

/-- A line of another kind is no answer. -/
theorem answer?_of_ne_route (hkind : l.kind ≠ .route) : l.answer? = none := by
  unfold answer? spoken?
  grind

end ScriptLine

section Represents

variable {linesOf linesOf' : String → List String} {sequence sequence' : String → Prop}

/-- A line of an outline represents a line of the script: the texts told there are kept under its
name, and it is an answer exactly where the script has one. -/
structure OutlineLine.Represents (linesOf : String → List String) (sequence : String → Prop)
    (sl : ScriptLine) (l : OutlineLine) : Prop where
  choice : l.depth % 2 = 0 → l.isDeadEnd = false → ∃ label full labelKeys,
    sl.choice? = some (l.depth, label, full) ∧
    Kept linesOf sequence (l.name ++ "S") label labelKeys ∧
    Kept linesOf sequence l.name full l.keys.reverse
  answer : ∀ name, l.role = .answer name → ∃ text, sl.answer? = some (l.depth, text) ∧
    l.name = name ++ "-0" ∧ KeptAnswer linesOf sequence l.name text l.keys.reverse
  answers : ∀ depth text, sl.answer? = some (depth, text) → l.depth = depth ∧ l.isDeadEnd = false

/-- A line is represented as before when more is stored. -/
theorem OutlineLine.Represents.mono {sl : ScriptLine} {l : OutlineLine}
    (h : l.Represents linesOf sequence sl) (hlinesOf : ∀ name, linesOf name <+: linesOf' name)
    (hsequence : ∀ name, sequence name → sequence' name) : l.Represents linesOf' sequence' sl where
  choice heven hline := by
    obtain ⟨label, full, labelKeys, hchoice, hlabel, hfull⟩ := h.choice heven hline
    exact ⟨label, full, labelKeys, hchoice, hlabel.mono (hlinesOf _) (hsequence _),
      hfull.mono (hlinesOf _) (hsequence _)⟩
  answer name hrole := by
    obtain ⟨text, hanswer, hname, hkept⟩ := h.answer name hrole
    exact ⟨text, hanswer, hname, hkept.mono (hlinesOf _) (hsequence _)⟩
  answers := h.answers

end Represents

section Adding

variable {cursor : Cursor} {depth : Nat} {deadEnd : Bool} {content : List Char}
  {store store' : LineStore} {keys : List String} {sl : ScriptLine}

/-- A line whose text was stored represents the line it was written on. -/
theorem represents_lineAt (hkind : sl.kind = .route)
    (hsplit : splitHyphens (trim sl.content) = some (depth, deadEnd, content))
    (hstore : Outline.storeLine cursor depth deadEnd content store = (store', .ok keys)) :
    (Outline.lineAt cursor depth deadEnd content keys).Represents store'.linesOf store'.Noted
      sl := by
  rw [Outline.storeLine] at hstore
  cases deadEnd with
  | true =>
    -- A dead end speaks nothing that would have to be represented.
    have hsilent := ScriptLine.spoken?_of_deadEnd hsplit
    refine ⟨fun _ hline => ?_, fun name hrole => ?_, fun depth' text hanswer => ?_⟩
    · rw [Outline.isDeadEnd_lineAt] at hline
      cases hline
    · simp [Outline.lineAt] at hrole
    · simp [ScriptLine.answer?, hsilent] at hanswer
  | false =>
    have hspoken := ScriptLine.spoken?_eq_some hkind hsplit
    rw [if_neg Bool.false_ne_true] at hstore
    by_cases heven : depth % 2 = 0
    · have hodd : depth % 2 ≠ 1 := by omega
      rw [if_pos heven] at hstore
      obtain ⟨label, full, store₁, labelKeys, htexts, hlabel, hfull⟩ :=
        Outline.storeChoice_eq_ok hstore
      refine ⟨fun _ _ => ?_, fun name hrole => ?_, fun depth' text hanswer => ?_⟩
      · have hchoice : sl.choice? = some (depth, label, full) := by
          simp [ScriptLine.choice?, hspoken, heven, htexts]
        have hgrows := store₁.grows_add (cursor.lineName depth) full
        rw [hfull] at hgrows
        exact ⟨label, full, labelKeys.reverse, hchoice,
          (LineStore.kept_add hlabel).mono (hgrows.linesOf_prefix _) (·.grows hgrows),
          LineStore.kept_add hfull⟩
      · exact absurd (Outline.odd_of_role_lineAt hrole) hodd
      · simp [ScriptLine.answer?, hspoken, hodd] at hanswer
    · have hodd : depth % 2 = 1 := by omega
      rw [if_neg heven] at hstore
      have hanswer : sl.answer? = some (depth, content) := by
        simp [ScriptLine.answer?, hspoken, hodd]
      refine ⟨fun heven' => absurd heven' heven, fun name hrole => ?_, fun depth' text htext => ?_⟩
      · rw [Outline.role_lineAt_of_odd hodd] at hrole
        cases hrole
        refine ⟨content, hanswer, ?_, LineStore.kept_storeAnswer hstore⟩
        rw [Outline.name_lineAt, Cursor.lineName, if_pos hodd]
      · cases hanswer.symm.trans htext
        exact ⟨rfl, Outline.isDeadEnd_lineAt⟩

/-- The outline of a dialogue represents the lines of the script it has read. -/
def Outline.Represents (block : List ScriptLine) (store : LineStore) (o : Outline) : Prop :=
  List.Forall₂ (OutlineLine.Represents store.linesOf store.Noted) block o.lines

/-- One more line is represented, too. -/
theorem Outline.Represents.addLine {block : List ScriptLine} {o o' : Outline}
    (h : o.Represents block store) (hkind : sl.kind = .route)
    (hadd : o.addLine sl.content store = (o', store', .ok ())) :
    o'.Represents (block ++ [sl]) store' := by
  have hgrows := o.grows_addLine sl.content store
  rw [hadd] at hgrows
  obtain ⟨depth, deadEnd, content, cursor, keys, hsplit, -, hstore, rfl⟩ :=
    Outline.addLine_eq_ok hadd
  have hbefore := h.imp fun _ _ hline =>
    hline.mono hgrows.linesOf_prefix fun _ hname => hname.grows hgrows
  exact List.rel_append hbefore (.cons (represents_lineAt hkind hsplit hstore) .nil)

end Adding

/-! ### What a choice says -/

/-- What the script says of a choice: the keys of its full text and, when it is answered, those of
the answer, in reading order. Where texts are kept is left open, as it is in `Kept`. -/
inductive Told (script : List ScriptLine) (linesOf : String → List String)
    (sequence : String → Prop) (c : Choice) : List String → Option (List String) → Prop
  /-- The line after the choice is no answer to it. -/
  | unanswered {before after : List ScriptLine} {l : ScriptLine} {depth : Nat}
      {label full : List Char} {labelKeys keys : List String}
      (hscript : script = before ++ l :: after) (hchoice : l.choice? = some (depth, label, full))
      (hnone : ∀ l' ∈ after.head?, ∀ text, l'.answer? ≠ some (depth + 1, text))
      (hlabel : Kept linesOf sequence c.label label labelKeys)
      (hfull : Kept linesOf sequence c.next full keys) : Told script linesOf sequence c keys none
  /-- The line after the choice answers it. -/
  | answered {before after : List ScriptLine} {l l' : ScriptLine} {depth : Nat}
      {label full text : List Char} {labelKeys keys answerKeys : List String}
      (hscript : script = before ++ l :: l' :: after)
      (hchoice : l.choice? = some (depth, label, full))
      (hanswer : l'.answer? = some (depth + 1, text))
      (hlabel : Kept linesOf sequence c.label label labelKeys)
      (hfull : Kept linesOf sequence c.next full keys)
      (htext : KeptAnswer linesOf sequence (c.next ++ "-0") text answerKeys) :
      Told script linesOf sequence c keys (some answerKeys)

/-- What the node of a choice shows: the full text where nobody answers, and else what is kept
under the name of the choice as one key, and then the answer. -/
def nodeKeys (name : String) (keys : List String) : Option (List String) → List String
  | none => keys
  | some answerKeys => name :: answerKeys

/-- That is all of the text exactly when nobody answers or the name is the only key of the full
text. -/
theorem nodeKeys_eq_append_iff {name : String} {keys : List String}
    {answer : Option (List String)} :
    nodeKeys name keys answer = keys ++ answer.getD [] ↔ answer = none ∨ keys = [name] := by
  cases answer with
  | none => simp [nodeKeys]
  | some answerKeys =>
    have hsplit : name :: answerKeys = [name] ++ answerKeys := rfl
    simp only [nodeKeys, Option.getD_some, reduceCtorEq, false_or]
    rw [hsplit, List.append_cancel_right_eq, eq_comm]

/-- The node that a choice leads to shows what the script says of it, as far as nodes do. -/
def Spoken (script : List ScriptLine) (linesOf : String → List String) (sequence : String → Prop)
    (c : Choice) (next : DialogueNode) : Prop :=
  ∃ keys answer, Told script linesOf sequence c keys answer ∧
    next.readingOrder = nodeKeys c.next keys answer

section Spoken

variable {linesOf linesOf' : String → List String} {sequence sequence' : String → Prop}
  {script : List ScriptLine} {c : Choice} {next : DialogueNode}

/-- What the script says of a choice stays told when more is stored. -/
theorem Told.mono {keys : List String} {answer : Option (List String)}
    (h : Told script linesOf sequence c keys answer)
    (hlinesOf : ∀ name, linesOf name <+: linesOf' name)
    (hsequence : ∀ name, sequence name → sequence' name) :
    Told script linesOf' sequence' c keys answer := by
  cases h with
  | unanswered hscript hchoice hnone hlabel hfull =>
    exact .unanswered hscript hchoice hnone (hlabel.mono (hlinesOf _) (hsequence _))
      (hfull.mono (hlinesOf _) (hsequence _))
  | answered hscript hchoice hanswer hlabel hfull htext =>
    exact .answered hscript hchoice hanswer (hlabel.mono (hlinesOf _) (hsequence _))
      (hfull.mono (hlinesOf _) (hsequence _)) (htext.mono (hlinesOf _) (hsequence _))

/-- A node that is spoken stays so when more is stored. -/
theorem Spoken.mono (h : Spoken script linesOf sequence c next)
    (hlinesOf : ∀ name, linesOf name <+: linesOf' name)
    (hsequence : ∀ name, sequence name → sequence' name) :
    Spoken script linesOf' sequence' c next := by
  obtain ⟨keys, answer, htold, hshown⟩ := h
  exact ⟨keys, answer, htold.mono hlinesOf hsequence, hshown⟩

/-- Where an outline represents a block of the script with which no line of dialogue goes on, each
choice is made by a line of the block, and its answer, if it has one, by the line after it. -/
theorem Outline.Represents.spoken {o : Outline} {store : LineStore}
    {before block after : List ScriptLine} (h : o.Represents block store)
    (hscript : script = before ++ (block ++ after)) (hafter : ∀ l ∈ after.head?, l.kind ≠ .route)
    {nodes : List (String × DialogueNode)} {l : OutlineLine} {rest : List OutlineLine}
    (hmade : MadeBy o.lines nodes c l rest next) :
    Spoken script store.linesOf store.Noted c next := by
  obtain ⟨front, hlines⟩ := hmade.suffix
  rw [Outline.Represents, ← hlines] at h
  obtain ⟨sl, below, hsl, hbelow, hdrop⟩ := List.forall₂_cons_right_iff.mp
    (List.forall₂_drop_append block front (l :: rest) h)
  have hblock : script = before ++ block.take front.length ++ sl :: (below ++ after) := by
    rw [hscript, List.append_assoc, ← List.cons_append, ← hdrop, ← List.append_assoc (block.take _),
      List.take_append_drop]
  obtain ⟨label, full, labelKeys, hchoice, hlabel, hfull⟩ := hsl.choice hmade.even hmade.line
  rw [← hmade.label] at hlabel
  rw [← hmade.name] at hfull
  cases hmade.leads with
  | ending hnone htext =>
    refine ⟨l.keys.reverse, none, ?_, by rw [DialogueNode.readingOrder, htext, nodeKeys]⟩
    refine .unanswered hblock hchoice (fun l' hl' text hanswer => ?_) hlabel hfull
    -- What follows the choice is no line of dialogue or no answer to it.
    cases hbelow with
    | nil =>
      rw [List.nil_append] at hl'
      rw [ScriptLine.answer?_of_ne_route (hafter l' hl')] at hanswer
      cases hanswer
    | @cons _ answer _ _ hsl' _ =>
      cases hl'
      obtain ⟨hdepth, hline⟩ := hsl'.answers _ _ hanswer
      rw [linesAt, if_neg (by omega), if_pos (by simp [hline, hdepth])] at hnone
      cases hnone
  | @answer answer _ hrest hdepth hrole htext =>
    subst hrest
    obtain ⟨sl', below, hsl', hbelow, rfl⟩ := List.forall₂_cons_right_iff.mp hbelow
    obtain ⟨text, hanswer, hname, hkept⟩ := hsl'.answer _ hrole
    rw [hname, ← hmade.name] at hkept
    rw [hdepth] at hanswer
    refine ⟨l.keys.reverse, some answer.keys.reverse, ?_, ?_⟩
    · exact .answered hblock hchoice hanswer hlabel hfull hkept
    · rw [DialogueNode.readingOrder, htext, List.reverse_append, hmade.name]
      rfl

end Spoken

end StoryTape.Script
