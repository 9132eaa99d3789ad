import StoryTape.Tape
import StoryTape.Script.Line
import StoryTape.Script.RuleLine
import StoryTape.Script.StateLine
import StoryTape.Script.TextLine
import StoryTape.Script.Outline
import StoryTape.Script.TagIndex

/-!
# Compiling scripts

A script is compiled line by line. A state line seals the tape before it and opens a new one; rule,
text and dialogue lines add to the open tape. Dialogue lines in a row form one outline, which is
closed by the first line of another kind and named after the text of the last rule. The first
error ends the compilation, and nothing is returned of a script that fails.
-/

namespace StoryTape.Script

open Text

/-- What a line of a script became. -/
inductive Part where
  /-- The label of an opened tape. -/
  | state (label : String)
  /-- A rule. -/
  | rule (rule : Rule)
  /-- The keys of stored lines. -/
  | text (keys : List String)
  /-- The name of a dialogue. -/
  | route (root : String)
  /-- A comment. -/
  | comment (content : String)
  deriving DecidableEq

/-- A compiled script. -/
structure CompiledScript where
  /-- The tapes, in the order written. -/
  tapes : List Tape
  /-- What the lines became, by line number. -/
  parts : List (Nat × Part)
  /-- The identifiers the script mentions. -/
  index : TagIndex

/-- The name of a dialogue that no rule with a text precedes. -/
def fallbackRoot : String := "FAIL"

/-- The tape being written. -/
structure Draft where
  label : String
  world : World
  rules : List Rule := []
  store : LineStore := {}
  routes : Dict DialogueNode := .empty

/-- A compilation under way. -/
structure Compilation where
  /-- The sealed tapes. -/
  tapes : List Tape := []
  /-- The lower-case labels of all tapes so far. -/
  labels : List String := []
  /-- The names of all dialogue nodes so far. -/
  routeNames : List String := []
  /-- What the lines became. -/
  parts : List (Nat × Part) := []
  /-- The identifiers so far. -/
  index : TagIndex := .empty
  /-- The open tape. -/
  draft : Option Draft := none
  /-- The open dialogue and the line it started on. -/
  outline : Option (Nat × Outline) := none

/-- Put the first counters of sequences into a location of the world. -/
def addCounters (name : String) (counters : List String) (w : World) : Checked World :=
  if counters.isEmpty then .ok w
  else do
    let tags ← (TagSet.ofRaws counters).inPhase .text
    return w.withLocation name tags

/-- The finished tape; the counters of its sequences join its world. -/
def Draft.seal (d : Draft) : Checked Tape := do
  let w ← addCounters loopName d.store.loops d.world
  let w ← addCounters onceName d.store.onces w
  return { label := d.label, world := w, rules := d.rules, text := d.store.toBook d.routes }

namespace Compilation

/-- The open tape; a line of the given sort needs one. -/
def draftFor (c : Compilation) (what : String) : Checked Draft :=
  match c.draft with
  | some d => .ok d
  | none => .error { cause := .beforeTapes what, phase := .tape }

/-- Note what a line became. -/
def note (c : Compilation) (line : Nat) (part : Part) : Compilation :=
  { c with parts := c.parts ++ [(line, part)] }

/-- Add a dialogue node to the open tape; its name has to be new in the script. -/
def addNode (c : Compilation) (node : String × DialogueNode) : Checked Compilation := do
  let d ← c.draftFor "route"
  if c.routeNames.contains node.1 then
    throw { cause := .routeNodeExists node.1, phase := .route }
  let index := node.2.choices.foldl TagIndex.addChoice c.index
  let draft := some { d with routes := d.routes.insert node.1 node.2 }
  return { c with routeNames := c.routeNames ++ [node.1], index, draft }

/-- Add the nodes of a dialogue to the open tape. -/
def addOutline (c : Compilation) (o : Outline) : Checked Compilation := do
  discard <| c.draftFor "route"
  if c.routeNames.contains o.root then throw { cause := .routeExists o.root, phase := .route }
  (← o.nodes).foldlM addNode c

/-- Close the open dialogue. Errors are blamed on the line it started on. -/
def closeOutline (c : Compilation) : Checked Compilation :=
  match c.outline with
  | none => .ok c
  | some (start, o) => ({ c with outline := none }.addOutline o).atLine start

/-- Seal the open tape. -/
def sealDraft (c : Compilation) : Checked Compilation :=
  match c.draft with
  | none => .ok c
  | some d => do
    let tape ← d.seal
    return { c with tapes := c.tapes ++ [tape], draft := none }

/-- A state line seals the tape before it and opens a new one, whose label has to be new in the
script, letter case aside. -/
def readState (c : Compilation) (l : ScriptLine) : Checked Compilation := do
  let c ← c.sealDraft
  let line ← parseStateLine (String.ofList l.content)
  let label := lowerText line.label
  if c.labels.contains label then
    throw { cause := .tapeExists line.label, phase := .tape }
  let c := { c with
    labels := c.labels ++ [label]
    index := c.index.addWorld line.world
    draft := some { label := line.label, world := line.world } }
  return c.note l.number (.state line.label)

/-- Store the sentences of a rule under its text name. -/
def storeSentences (store : LineStore) (name : String) : List String → Checked LineStore
  | [] => .ok store
  | sentence :: sentences =>
    match store.add name sentence.toList with
    | (store, .ok _) => storeSentences store name sentences
    | (_, .error e) => .error e

/-- A rule line adds its sentences and its rule to the open tape. -/
def readRule (c : Compilation) (l : ScriptLine) : Checked Compilation := do
  let d ← c.draftFor "rule"
  let line ← parseRuleLine (String.ofList l.content)
  let store ← match line.text with
    | none => .ok d.store
    | some text => storeSentences d.store text.name text.sentences
  let c := { c with
    index := c.index.addRule line.rule
    draft := some { d with store, rules := d.rules ++ [line.rule] } }
  return c.note l.number (.rule line.rule)

/-- The name of a dialogue that starts now: the text of the last rule. -/
def dialogueRoot (d : Draft) : String :=
  (d.rules.getLast?.bind Rule.text).getD fallbackRoot

/-- A dialogue line goes on with the open dialogue or starts one. -/
def readRoute (c : Compilation) (l : ScriptLine) : Checked Compilation := do
  let d ← c.draftFor "route"
  let (c, start, outline) := match c.outline with
    | some (start, outline) => (c, start, outline)
    | none =>
      let root := dialogueRoot d
      (c.note l.number (.route root), l.number, Outline.start root)
  match outline.addLine l.content d.store with
  | (_, _, .error e) => throw e
  | (outline, store, .ok _) =>
    return { c with outline := some (start, outline), draft := some { d with store } }

/-- A text line adds a text or a sequence to the open tape. -/
def readText (c : Compilation) (l : ScriptLine) : Checked Compilation := do
  let d ← c.draftFor "text"
  let line ← parseTextLine (String.ofList l.content)
  let stored :=
    match line.sentences with
    | [sentence] => d.store.add line.name sentence.toList
    | sentences =>
      let kind := if line.once then SequenceKind.once else .loop
      d.store.addSequence line.name (sentences.map String.toList) kind
  match stored with
  | (_, .error e) => throw e
  | (store, .ok keys) =>
    let c := { c with draft := some { d with store } }
    return c.note l.number (.text keys)

/-- What a line does to the compilation, the open dialogue aside. -/
def readContent (c : Compilation) (l : ScriptLine) : Checked Compilation :=
  match l.kind with
  | .state => c.readState l
  | .rule => c.readRule l
  | .route => c.readRoute l
  | .text => c.readText l
  | .comment => .ok (c.note l.number (.comment (String.ofList l.content)))
  | .goal | .step => .ok c

/-- Take one more line into account. -/
def readLine (c : Compilation) (l : ScriptLine) : Checked Compilation := do
  let c ← if l.kind = .route then .ok c else c.closeOutline
  (c.readContent l).atLine l.number

/-- The compiled script, once all lines are read. -/
def finish (c : Compilation) : Checked CompiledScript := do
  let c ← c.closeOutline
  let c ← c.sealDraft
  return ⟨c.tapes, c.parts, c.index⟩

end Compilation

/-- Compile a script. -/
def compile (source : String) : Checked CompiledScript := do
  let lines ← splitScript source
  let c ← lines.foldlM Compilation.readLine {}
  c.finish

end StoryTape.Script
