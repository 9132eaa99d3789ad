import Mathlib.Data.List.Nodup
import StoryTape.Proofs.OutlineNodes

/-!
# Places in an outline

What an outline offers depends on where a line stands, not only on the line, so a place is a line
together with the lines after it. The choices of a depth are found by a search that a shallower line
ends; the nodes of an outline are those of its speakers, the root and the answers, and those of the
choices that nobody answers. An outline that is read line by line hangs together: a line is at most
one deeper than the line before, and its answers are the lines of odd depth.
-/

namespace StoryTape.Script

open Text

/-! ### Places -/

/-- A line of an outline and the lines after it. -/
abbrev Place := OutlineLine × List OutlineLine

/-- The choice that is made at a place. -/
def madeChoice (p : Place) : Choice := (choiceOf p.1 p.2).1

/-- The node that the choice made at a place ends in when nobody answers. -/
def endingNode? (p : Place) : Option (String × DialogueNode) := (choiceOf p.1 p.2).2

/-- What a dead end carries. -/
def OutlineLine.ending? (l : OutlineLine) : Option Ending :=
  match l.role with
  | .deadEnd payload gain goto => some ⟨payload, gain, goto⟩
  | _ => none

/-- A line that makes a choice of the given depth. -/
def isChoiceAt (depth : Nat) (l : OutlineLine) : Bool := !l.isDeadEnd && l.depth == depth

/-- A line makes a choice of its own depth unless it is a dead end. -/
theorem isChoiceAt_iff {depth : Nat} {l : OutlineLine} :
    isChoiceAt depth l = true ↔ l.isDeadEnd = false ∧ l.depth = depth := by
  simp [isChoiceAt]

section Places

variable {depth k : Nat} {first : OutlineLine} {ls : List OutlineLine} {p : Place}

/-- Choices of a depth are looked for up to the first shallower line. -/
theorem linesAt_cons : linesAt depth (first :: ls) =
    if first.depth < depth then []
    else if isChoiceAt depth first then (first, ls) :: linesAt depth ls else linesAt depth ls := rfl

/-- A place among some lines, before the first line shallower than a depth and after `k` choices of
that depth. -/
def Within (depth k : Nat) (ls : List OutlineLine) (p : Place) : Prop :=
  ∃ between, ls = between ++ p.1 :: p.2 ∧ (∀ l ∈ between, depth ≤ l.depth) ∧
    between.countP (isChoiceAt depth) = k

/-- It is the first place or a later one. -/
theorem within_cons_iff : Within depth k (first :: ls) p ↔
    p = (first, ls) ∧ k = 0 ∨
      depth ≤ first.depth ∧ ∃ k', Within depth k' ls p ∧
        k = k' + if isChoiceAt depth first then 1 else 0 := by
  constructor
  · rintro ⟨_ | ⟨l, between⟩, hsplit, hdeep, rfl⟩
    · obtain ⟨rfl, rfl⟩ := List.cons.inj hsplit
      exact .inl ⟨rfl, rfl⟩
    · obtain ⟨rfl, rfl⟩ := List.cons.inj hsplit
      rw [List.forall_mem_cons] at hdeep
      exact .inr ⟨hdeep.1, _, ⟨between, rfl, hdeep.2, rfl⟩, List.countP_cons⟩
  · rintro (⟨rfl, rfl⟩ | ⟨hfirst, k', ⟨between, rfl, hdeep, rfl⟩, rfl⟩)
    · exact ⟨[], rfl, nofun, rfl⟩
    · exact ⟨first :: between, rfl, List.forall_mem_cons.mpr ⟨hfirst, hdeep⟩, List.countP_cons⟩

/-- The choices of a depth are those before the first shallower line, each numbered by those before
it. -/
theorem getElem?_linesAt_eq_some_iff :
    (linesAt depth ls)[k]? = some p ↔ Within depth k ls p ∧ isChoiceAt depth p.1 = true := by
  induction ls generalizing k with
  | nil => simp [linesAt, Within]
  | cons first ls ih =>
    rw [linesAt_cons, within_cons_iff]
    by_cases hlt : first.depth < depth
    · have hnot : ¬ isChoiceAt depth first = true := fun h => by
        have := (isChoiceAt_iff.mp h).2
        omega
      rw [if_pos hlt]
      grind
    · rw [if_neg hlt]
      by_cases hfirst : isChoiceAt depth first = true
      · rw [if_pos hfirst, if_pos hfirst]
        cases k with
        | zero =>
          rw [List.getElem?_cons_zero, Option.some_inj, eq_comm]
          grind
        | succ k =>
          rw [List.getElem?_cons_succ, ih]
          grind
      · rw [if_neg hfirst, if_neg hfirst, ih]
        grind

/-- The choices of a depth stand before the first shallower line. -/
theorem mem_linesAt_iff :
    p ∈ linesAt depth ls ↔ (∃ k, Within depth k ls p) ∧ isChoiceAt depth p.1 = true := by
  simp only [List.mem_iff_getElem?, getElem?_linesAt_eq_some_iff, exists_and_right]

/-- No choice is found twice. -/
theorem nodup_linesAt : (linesAt depth ls).Nodup := by
  induction ls with
  | nil => exact List.nodup_nil
  | cons first ls ih =>
    rw [linesAt]
    split
    · exact List.nodup_nil
    · split
      · refine List.nodup_cons.mpr ⟨fun hmem => ?_, ih⟩
        have hle := (suffix_of_mem_linesAt hmem).1.length_le
        exact absurd hle (by simp)
      · exact ih

end Places

/-! ### Speakers -/

/-- The answers among some lines. -/
def answersIn : List OutlineLine → List Place
  | [] => []
  | l :: rest =>
    match l.role with
    | .answer _ => (l, rest) :: answersIn rest
    | _ => answersIn rest

/-- Who offers choices in a dialogue. -/
inductive Speaker where
  /-- The root. -/
  | opening
  /-- The answer at a place. -/
  | answer (a : Place)
  deriving DecidableEq

namespace Outline

/-- Who offers choices, in the order of the nodes. -/
def speakers (o : Outline) : List Speaker := .opening :: (answersIn o.lines.tail).map .answer

/-- The places where a speaker's choices are made. -/
def offered (o : Outline) : Speaker → List Place
  | .opening => linesAt 0 o.lines
  | .answer a => linesAt (a.1.depth + 1) a.2

/-- The name of a speaker's node. -/
def Names (o : Outline) (name : String) : Speaker → Prop
  | .opening => name = o.root
  | .answer a => a.1.role = .answer name

/-- All places where a choice is offered. -/
def offers (o : Outline) : List Place := o.speakers.flatMap o.offered

end Outline

/-- The answers are the places whose line is one. -/
theorem mem_answersIn_iff {ls : List OutlineLine} {a : Place} :
    a ∈ answersIn ls ↔ a.1 :: a.2 <:+ ls ∧ ∃ name, a.1.role = .answer name := by
  induction ls with
  | nil => simp [answersIn]
  | cons first ls ih =>
    rw [answersIn, List.suffix_cons_iff]
    split
    · next name hrole =>
      rw [List.mem_cons, ih]
      grind
    · next hrole =>
      rw [ih]
      grind

/-- No answer is found twice. -/
theorem nodup_answersIn {ls : List OutlineLine} : (answersIn ls).Nodup := by
  induction ls with
  | nil => exact List.nodup_nil
  | cons first ls ih =>
    rw [answersIn]
    split
    · refine List.nodup_cons.mpr ⟨fun hmem => ?_, ih⟩
      exact absurd (mem_answersIn_iff.mp hmem).1.length_le (by simp)
    · exact ih

/-- A member on the right has a partner on the left. -/
theorem exists_of_mem_forall₂ {α β : Type} {R : α → β → Prop} {xs : List α} {ys : List β}
    (h : List.Forall₂ R xs ys) {y : β} (hy : y ∈ ys) : ∃ x ∈ xs, R x y := by
  induction h with
  | nil => cases hy
  | @cons x y' xs ys hfirst _ ih =>
    rcases List.mem_cons.mp hy with rfl | hy
    · exact ⟨x, List.mem_cons_self, hfirst⟩
    · obtain ⟨x', hx', hR⟩ := ih hy
      exact ⟨x', List.mem_cons_of_mem _ hx', hR⟩

namespace Outline

/-- The node of a speaker: it has the speaker's name and the choices that the speaker offers. -/
def NodeOf (o : Outline) (s : Speaker) (node : String × DialogueNode) : Prop :=
  o.Names node.1 s ∧ node.2.choices = (o.offered s).map madeChoice

/-- Every answer gets its node, in order. -/
theorem forall₂_answerNodes (o : Outline) (ls : List OutlineLine) :
    List.Forall₂ o.NodeOf ((answersIn ls).map .answer) ((answerNodes ls).map Prod.fst) := by
  induction ls with
  | nil => exact .nil
  | cons first ls ih =>
    rw [answersIn, answerNodes]
    cases hrole : first.role with
    | answer name =>
      refine .cons ⟨hrole, ?_⟩ ih
      simp [choicesAt, offered, madeChoice, Function.comp_def]
    | choice | deadEnd => exact ih

/-- The nodes that choices of a depth end in are those of their places. -/
theorem filterMap_choicesAt (depth : Nat) (ls : List OutlineLine) :
    (choicesAt depth ls).filterMap Prod.snd = (linesAt depth ls).filterMap endingNode? := by
  rw [choicesAt, List.filterMap_map]
  rfl

/-- The nodes that choices under answers end in are those of their places. -/
theorem flatMap_answerNodes (o : Outline) (ls : List OutlineLine) :
    (answerNodes ls).flatMap Prod.snd =
      (((answersIn ls).map .answer).flatMap o.offered).filterMap endingNode? := by
  induction ls with
  | nil => rfl
  | cons first ls ih =>
    rw [answersIn, answerNodes]
    cases hrole : first.role with
    | answer name =>
      simp only [List.flatMap_cons, List.map_cons, List.filterMap_append, filterMap_choicesAt, ih]
      rfl
    | choice | deadEnd => exact ih

/-- The nodes of an outline are those of the speakers and those of the offered choices that nobody
answers. -/
theorem exists_nodesOf_eq (o : Outline) :
    ∃ spoken, o.nodesOf = spoken ++ o.offers.filterMap endingNode? ∧
      List.Forall₂ o.NodeOf o.speakers spoken := by
  have hroot : o.NodeOf .opening
      (o.root, { text := [o.root], choices := (choicesAt 0 o.lines).map Prod.fst }) :=
    ⟨rfl, by simp [choicesAt, offered, madeChoice, Function.comp_def]⟩
  refine ⟨_, ?_, .cons hroot (o.forall₂_answerNodes o.lines.tail)⟩
  rw [nodesOf, filterMap_choicesAt, o.flatMap_answerNodes, ← List.filterMap_append]
  rfl

/-- The nodes that choices end in offer none. -/
theorem choices_of_mem_endings {o : Outline} {node : String × DialogueNode}
    (h : node ∈ o.offers.filterMap endingNode?) : node.2.choices = [] := by
  obtain ⟨p, -, hp⟩ := List.mem_filterMap.mp h
  exact choices_of_ending hp

/-- The choices of the nodes are those that are offered. -/
theorem flatMap_choices (o : Outline) :
    o.nodesOf.flatMap (fun node => node.2.choices) = o.offers.map madeChoice := by
  obtain ⟨spoken, hnodes, hspoken⟩ := o.exists_nodesOf_eq
  have hendings : (o.offers.filterMap endingNode?).flatMap (fun node => node.2.choices) = [] :=
    List.flatMap_eq_nil_iff.mpr fun _ => choices_of_mem_endings
  rw [hnodes, List.flatMap_append, hendings, List.append_nil, offers]
  clear hnodes hendings
  generalize o.speakers = speakers at hspoken
  induction hspoken with
  | nil => rfl
  | cons hfirst _ ih => rw [List.flatMap_cons, List.flatMap_cons, List.map_append, ih, hfirst.2]

/-- A node that offers a choice is that of a speaker. -/
theorem exists_speaker {o : Outline} {node : String × DialogueNode} (hnode : node ∈ o.nodesOf)
    (hchoices : node.2.choices ≠ []) : ∃ s ∈ o.speakers, o.NodeOf s node := by
  obtain ⟨spoken, hnodes, hspoken⟩ := o.exists_nodesOf_eq
  rcases List.mem_append.mp (hnodes ▸ hnode) with hnode | hnode
  · exact exists_of_mem_forall₂ hspoken hnode
  · exact absurd (choices_of_mem_endings hnode) hchoices

end Outline

/-! ### Lines read one after another -/

/-- The outline that the lines of a dialogue are read into, whatever is stored in between. -/
inductive Outline.Reads (root : String) : List (List Char) → Outline → Prop
  /-- Nothing is read yet. -/
  | start : Reads root [] (.start root)
  /-- One more line is taken. -/
  | line {texts : List (List Char)} {o o' : Outline} {text : List Char} {store store' : LineStore}
      (hreads : Reads root texts o) (hadd : o.addLine text store = (o', store', .ok ())) :
      Reads root (texts ++ [text]) o'

/-- How the lines of an outline hang together. -/
structure Outline.Linked (o : Outline) : Prop where
  chain : o.lines.IsChain Follows
  last : ∀ l ∈ o.lines.getLast?, o.cursor.IsAt l
  answer : ∀ l ∈ o.lines, (∃ name, l.role = .answer name) ↔
    l.isDeadEnd = false ∧ l.depth % 2 = 1

namespace Outline

variable {root : String} {texts : List (List Char)} {o o' : Outline}

/-- The answers are the lines of odd depth that are no dead ends. -/
theorem role_lineAt_iff {cursor : Cursor} {depth : Nat} {deadEnd : Bool} {content : List Char}
    {keys : List String} :
    (∃ name, (lineAt cursor depth deadEnd content keys).role = .answer name) ↔
      (lineAt cursor depth deadEnd content keys).isDeadEnd = false ∧ depth % 2 = 1 := by
  unfold lineAt OutlineLine.isDeadEnd
  grind

/-- One more line hangs together with the lines before it. -/
theorem Linked.addLine {text : List Char} {store store' : LineStore} (h : o.Linked)
    (hadd : o.addLine text store = (o', store', .ok ())) : o'.Linked := by
  obtain ⟨hchain, hlast⟩ := chain_addLine h.chain h.last hadd
  refine ⟨hchain, hlast, fun l hl => ?_⟩
  obtain ⟨depth, deadEnd, content, cursor, keys, -, -, -, rfl⟩ := addLine_eq_ok hadd
  rcases List.mem_append.mp hl with hl | hl
  · exact h.answer l hl
  · exact List.mem_singleton.mp hl ▸ role_lineAt_iff

/-- The lines of a dialogue hang together. -/
theorem Reads.linked (h : Reads root texts o) : o.Linked := by
  induction h with
  | start => exact ⟨.nil, nofun, nofun⟩
  | line hreads hadd ih => exact ih.addLine hadd

/-- What the content of a dead end carries. -/
def endingFrom (content : List Char) : Ending :=
  let (payload, gain, rest) := takeGroups content
  ⟨payload, gain, if rest.isEmpty then none else some (String.ofList (trimEnd rest))⟩

/-- A line has the depth and the mark of the text it is read from, a dead end also what the text
carries. -/
def ReadFrom (text : List Char) (l : OutlineLine) : Prop :=
  ∃ content, splitHyphens (trim text) = some (l.depth, l.isDeadEnd, content) ∧
    (l.isDeadEnd = true → l.ending? = some (endingFrom content))

/-- Each line is read from a text of its own. -/
theorem Reads.forall₂_readFrom (h : Reads root texts o) : List.Forall₂ ReadFrom texts o.lines := by
  induction h with
  | start => exact .nil
  | line hreads hadd ih =>
    obtain ⟨depth, deadEnd, content, cursor, keys, hsplit, -, -, rfl⟩ := addLine_eq_ok hadd
    refine List.rel_append ih (.cons ⟨content, ?_, fun hdead => ?_⟩ .nil)
    · rw [isDeadEnd_lineAt]
      exact hsplit
    · rw [isDeadEnd_lineAt] at hdead
      subst hdead
      rfl

/-- Add lines one after another, with nothing stored in between. -/
def addAll (o : Outline) (store : LineStore) : List (List Char) → Option (Outline × LineStore)
  | [] => some (o, store)
  | text :: texts =>
    match o.addLine text store with
    | (o, store, .ok _) => addAll o store texts
    | (_, _, .error _) => none

/-- Reading more lines of a dialogue is reading all of them. -/
theorem Reads.addAll {more : List (List Char)} {store store' : LineStore}
    (h : Reads root texts o) (hadd : o.addAll store more = some (o', store')) :
    Reads root (texts ++ more) o' := by
  induction more generalizing texts o store with
  | nil =>
    cases hadd
    rwa [List.append_nil]
  | cons text more ih =>
    rw [Outline.addAll] at hadd
    split at hadd
    · next hline => simpa using ih (h.line hline) hadd
    · cases hadd

end Outline

end StoryTape.Script
