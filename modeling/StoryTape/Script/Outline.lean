import StoryTape.Script.Grammar
import StoryTape.Script.LineStore

/-!
# Outlines of dialogues

A dialogue is written as an outline: the hyphens a line opens with, less two, are its depth. Lines
of even depth are choices, lines of odd depth answers, and a `>` after the hyphens marks a dead
end, which carries what the choice before it gives and where to go. A cursor names the lines by
their place in the outline, and the outline is then turned into dialogue nodes: the root first,
then the answered choices, then the choices that end the dialogue.
-/

namespace StoryTape.Script

open Text

/-- A place in an outline. -/
structure Cursor where
  /-- The name of the whole dialogue. -/
  root : String
  /-- The depth of the last line. -/
  depth : Nat := 0
  /-- The number of the current choice on each level; a level has two depths. -/
  counters : List Nat := [0]
  deriving DecidableEq, Repr

namespace Cursor

/-- The counters with enough levels for a depth. -/
def widen (counters : List Nat) (depth : Nat) : List Nat :=
  counters ++ List.replicate (depth / 2 + 1 - counters.length) 0

/-- Move to a line of the given depth. A choice counts on its level, and starts anew below an
answer. A line may be at most one deeper than the line before, a dead end no deeper at all. -/
def advance (c : Cursor) (depth : Nat) (deadEnd : Bool) : Cursor × Checked Unit :=
  let c := { c with counters := widen c.counters depth }
  let jump : Checked Unit :=
    .error { cause := .depthJump c.root depth c.depth, phase := .route }
  if deadEnd then
    if depth > c.depth then (c, jump) else ({ c with depth }, .ok ())
  else if depth ≤ c.depth then
    let counters :=
      if depth % 2 = 0 then c.counters.modify (depth / 2) (· + 1) else c.counters
    ({ c with depth, counters }, .ok ())
  else if depth ≠ c.depth + 1 then (c, jump)
  else
    let counters := if depth % 2 = 0 then c.counters.set (depth / 2) 1 else c.counters
    ({ c with depth, counters }, .ok ())

/-- The name of the current choice on the level of a depth: the root and the counters so far. -/
def choiceName (c : Cursor) (depth : Nat) : String :=
  (List.range (depth / 2 + 1)).foldl
    (fun name level => name ++ "-" ++ countText (c.counters[level]?.getD 0)) c.root

/-- The name of a line of the given depth; an answer is named after its choice. -/
def lineName (c : Cursor) (depth : Nat) : String :=
  c.choiceName depth ++ if depth % 2 = 1 then "-0" else ""

end Cursor

/-- What a line of an outline is. -/
inductive OutlineRole where
  /-- A choice with its context and cost. -/
  | choice (context cost : TagSet)
  /-- An answer to the choice of the given name. -/
  | answer (node : String)
  /-- A dead end with what it gives and where it leads. -/
  | deadEnd (payload gain : TagSet) (goto : Option String)
  deriving DecidableEq

/-- A line of an outline. -/
structure OutlineLine where
  /-- How deep it is indented. -/
  depth : Nat
  /-- Its name. -/
  name : String
  /-- The keys of its text, last one first. -/
  keys : List String
  /-- What it is. -/
  role : OutlineRole
  deriving DecidableEq

/-- Whether a line is a dead end. -/
def OutlineLine.isDeadEnd (l : OutlineLine) : Bool :=
  match l.role with
  | .deadEnd .. => true
  | _ => false

/-- The lines of a dialogue and the place of the last one. -/
structure Outline where
  /-- The place of the last line. -/
  cursor : Cursor
  /-- The lines so far. -/
  lines : List OutlineLine := []
  deriving DecidableEq

/-- Take a group of tags off the front of a text. A text that does not start with one is left
alone. -/
def takeGroup (opening closing : Char) (text : List Char) : TagSet × List Char :=
  match text with
  | [] => (.empty, [])
  | c :: _ =>
    if c = opening then
      match splitFirst [closing] text with
      | none => (.empty, text)
      | some (inside, rest) =>
        match parseGroup .route (String.ofList (inside ++ [closing])) with
        | .ok tags => (tags, trimStart rest)
        | .error _ => (.empty, text)
    else (.empty, text)

/-- A group in parentheses and one in braces taken off the front of a text. -/
def takeGroups (text : List Char) : TagSet × TagSet × List Char :=
  let (outer, text) := takeGroup '(' ')' text
  let (inner, text) := takeGroup '\x7b' '\x7d' text
  (outer, inner, text)

/-- The label and the full text of a choice, `before[inside]after`: the label is what stands up to
the closing bracket, the full text what stands outside the brackets. -/
def splitChoice (text : List Char) : Option (List Char × List Char) :=
  match splitFirst ['['] text with
  | none => none
  | some (before, rest) =>
    if before.contains ']' then none
    else
      match splitFirst [']'] rest with
      | none => none
      | some (inside, after) => some (trim (before ++ inside), trim (before ++ after))

/-- A line of dialogue cut into its depth, the mark of a dead end and its content. -/
def splitHyphens (line : List Char) : Option (Nat × Bool × List Char) :=
  let hyphens := line.takeWhile (· == '-')
  if hyphens.length < 2 then none
  else
    match line.dropWhile (· == '-') with
    | '>' :: rest => some (hyphens.length - 2, true, trim rest)
    | rest => some (hyphens.length - 2, false, trim rest)

namespace Outline

/-- The empty outline of a dialogue. -/
def start (root : String) : Outline := { cursor := { root } }

/-- The name of the dialogue. -/
def root (o : Outline) : String := o.cursor.root

/-- Store the label and the text of a choice, and give the keys of its text. -/
def storeChoice (name : String) (text : List Char) (store : LineStore) :
    LineStore × Checked (List String) :=
  match splitChoice text with
  | none => (store, .error { cause := .choiceWithoutLabel (String.ofList text), phase := .route })
  | some (label, full) =>
    if full.isEmpty then
      (store, .error { cause := .choiceWithoutText (String.ofList text), phase := .route })
    else
      match store.add (name ++ "S") label with
      | (store, .error e) => (store, .error e)
      | (store, .ok _) => store.add name full

/-- Store the text of an answer: several sentences are a loop. -/
def storeAnswer (name : String) (text : List Char) (store : LineStore) :
    LineStore × Checked (List String) :=
  if text.contains '|' then store.addSequence name ((splitChar '|' text).map trim) .loop
  else store.add name text

/-- Read the content of a line whose name is known, and store its text. -/
def readContent (cursor : Cursor) (depth : Nat) (deadEnd : Bool) (content : List Char)
    (store : LineStore) : LineStore × Checked OutlineLine :=
  let name := cursor.lineName depth
  if deadEnd then
    let (payload, gain, rest) := takeGroups content
    let goto := if rest.isEmpty then none else some (String.ofList (trimEnd rest))
    (store, .ok { depth, name, keys := [], role := .deadEnd payload gain goto })
  else if depth % 2 = 0 then
    let (context, cost, rest) := takeGroups content
    let (store, keys) := storeChoice name rest store
    (store, keys.map fun keys => { depth, name, keys, role := .choice context cost })
  else
    let (store, keys) := storeAnswer name content store
    let role := .answer (cursor.choiceName depth)
    (store, keys.map fun keys => { depth, name, keys, role })

/-- Add a line of dialogue, hyphens included, and store its text. Where a line fails, the cursor
and the store keep what changed before. -/
def addLine (o : Outline) (line : List Char) (store : LineStore) :
    Outline × LineStore × Checked Unit :=
  let line := trim line
  match splitHyphens line with
  | none => (o, store, .error { cause := .fewHyphens (String.ofList line), phase := .route })
  | some (depth, deadEnd, content) =>
    match o.cursor.advance depth deadEnd with
    | (cursor, .error e) => ({ o with cursor }, store, .error e)
    | (cursor, .ok _) =>
      match readContent cursor depth deadEnd content store with
      | (store, .error e) => ({ o with cursor }, store, .error e)
      | (store, .ok l) => ({ cursor, lines := o.lines ++ [l] }, store, .ok ())

end Outline

/-- The lines of a depth before the first shallower line, dead ends aside, each with the lines
after it. -/
def linesAt (depth : Nat) : List OutlineLine → List (OutlineLine × List OutlineLine)
  | [] => []
  | l :: rest =>
    if l.depth < depth then []
    else if !l.isDeadEnd && l.depth == depth then (l, rest) :: linesAt depth rest
    else linesAt depth rest

/-- What a dead end gives and where it leads. -/
structure Ending where
  payload : TagSet
  gain : TagSet
  goto : Option String

/-- The dead end at a place, if the line there is one of the given depth. -/
def endingAt (depth : Nat) : Option OutlineLine → Option Ending
  | some { depth := d, role := .deadEnd payload gain goto, .. } =>
    if d = depth then some ⟨payload, gain, goto⟩ else none
  | _ => none

/-- The choice that a line makes, and the node it ends in when nobody answers. An unanswered
choice takes what it gives from a dead end right after it, an answered one from a dead end after
its first answer. -/
def choiceOf (l : OutlineLine) (rest : List OutlineLine) :
    Choice × Option (String × DialogueNode) :=
  let (context, cost) := match l.role with
    | .choice context cost => (context, cost)
    | _ => (.empty, .empty)
  let answered := !(linesAt (l.depth + 1) rest).isEmpty
  let ending := endingAt l.depth (if answered then rest[1]? else rest.head?)
  let (payload, gain) := match ending with
    | some e => (e.payload, e.gain)
    | none => (.empty, .empty)
  let choice := { label := l.name ++ "S", next := l.name, context, cost, payload, gain }
  let node := if answered then none
    else some (l.name, { text := l.keys, goto := ending.bind Ending.goto })
  (choice, node)

/-- The choices of one depth with the nodes that end there. -/
def choicesAt (depth : Nat) (rest : List OutlineLine) :
    List (Choice × Option (String × DialogueNode)) :=
  (linesAt depth rest).map fun (l, rest) => choiceOf l rest

/-- A named node and the nodes that its choices end in. -/
abbrev NodeWithEndings := (String × DialogueNode) × List (String × DialogueNode)

/-- The nodes of the answers. An answered choice shows its own text and then the answer's. -/
def answerNodes : List OutlineLine → List NodeWithEndings
  | [] => []
  | l :: rest =>
    match l.role with
    | .answer name =>
      let below := choicesAt (l.depth + 1) rest
      let goto :=
        if below.isEmpty then (endingAt (l.depth - 1) rest.head?).bind Ending.goto else none
      let node := { text := l.keys ++ [name], choices := below.map Prod.fst, goto }
      ((name, node), below.filterMap Prod.snd) :: answerNodes rest
    | _ => answerNodes rest

/-- The dialogue nodes of an outline, which has to open at depth zero and to have a choice
there. -/
def Outline.nodes (o : Outline) : Checked (List (String × DialogueNode)) :=
  let top := choicesAt 0 o.lines
  let opens := match o.lines with
    | [] => false
    | l :: _ => l.depth == 0
  if top.isEmpty || !opens then
    .error { cause := .noOpeningChoice o.root, phase := .route }
  else
    let root := (o.root, { text := [o.root], choices := top.map Prod.fst })
    let answers := answerNodes o.lines.tail
    .ok (root :: answers.map Prod.fst ++
      (top.filterMap Prod.snd ++ answers.flatMap Prod.snd))

end StoryTape.Script
