import StoryTape.Tape

/-!
# Problems of a tape

A tape may name texts and nodes that it does not hold, or record ranges beyond its lines. Such
problems do not stop a tape from being played; they are listed for its author, rules first, then
the dialogue nodes in order of their names, then the ranges.
-/

namespace StoryTape

open Text

/-- A dangling name or a bad range. -/
inductive TapeProblem where
  /-- No line has this key. -/
  | missingText (key place : String)
  /-- Neither a node nor a line has this name. -/
  | missingTarget (name place : String)
  /-- A range of a name goes beyond its lines. -/
  | badRange (name : String) (start stop count : Nat)
  deriving DecidableEq, Repr

/-- The wording of a problem. -/
def TapeProblem.message : TapeProblem → String
  | missingText key place => s!"missing text '{key}' ({place})"
  | missingTarget name place => s!"missing route node or text '{name}' ({place})"
  | badRange name start stop count =>
    let (start, stop, count) := (countText start, countText stop, countText count)
    s!"range {start}..{stop} of '{name}' exceeds its {count} lines"

namespace TextBook

/-- The problem of a key without line. -/
def checkText (b : TextBook) (place key : String) : List TapeProblem :=
  if isSignal key || b.hasLine key then [] else [.missingText key place]

/-- The problem of a name that is neither a node nor a text. -/
def checkTarget (b : TextBook) (place name : String) : List TapeProblem :=
  if (b.route? name).isSome || b.hasLine name then [] else [.missingTarget name place]

/-- The problem of the text of a rule. -/
def checkRule (b : TextBook) (r : Rule) (number : Nat) : List TapeProblem :=
  match r.text with
  | none => []
  | some key =>
    if (b.route? key).isSome then []
    else
      let (number, target) := (countText number, r.target.raw)
      b.checkText s!"rule {number} [{target}]" key

/-- The problems of a choice of a node. -/
def checkChoice (b : TextBook) (node : String) (c : Choice) : List TapeProblem :=
  b.checkText s!"choice of route node '{node}'" c.label ++
    b.checkTarget s!"stitch of route node '{node}'" c.next

/-- The problems of a node. -/
def checkNode (b : TextBook) : String × DialogueNode → List TapeProblem
  | (name, node) =>
    node.text.flatMap (b.checkText s!"route node '{name}'") ++
      node.choices.flatMap (b.checkChoice name) ++
      node.goto.toList.flatMap (b.checkTarget s!"goto of route node '{name}'")

/-- The problem of a range. -/
def checkRange (b : TextBook) (name : String) (r : LineRange) : List TapeProblem :=
  let count := b.lineCount name
  if r.start > r.stop || r.stop > count then [.badRange name r.start r.stop count] else []

end TextBook

/-- The problems of a tape. -/
def Tape.problems (t : Tape) : List TapeProblem :=
  (t.rules.zipIdx.flatMap fun (r, i) => t.text.checkRule r (i + 1)) ++
    t.text.routes.entries.flatMap t.text.checkNode ++
    t.text.ranges.entries.flatMap fun (name, ranges) => ranges.flatMap (t.text.checkRange name)

end StoryTape
