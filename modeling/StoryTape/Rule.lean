import StoryTape.TagSet

/-!
# Rules

A rule says when something can be done and what comes of it: a target tag found in the scene, a
context found around it, a cost paid from the player's hands or dropped from the scene, a payload
laid out in the world and a gain taken in hand. Its head `(context)cost[target]->(payload){gain}`
is its written form, its description what the player reads.
-/

namespace StoryTape

open Text

/-- A rule of a tape. -/
structure Rule where
  /-- The tag to be found in the scene. -/
  target : Tag
  /-- What has to be found in the scenes around, or not. -/
  context : TagSet := .empty
  /-- What is paid. -/
  cost : TagSet := .empty
  /-- What is laid out. -/
  payload : TagSet := .empty
  /-- What is taken in hand. -/
  gain : TagSet := .empty
  /-- Whether the cost is paid from what the player carries and not from the scene. -/
  drag : Bool := true
  /-- The name of the text shown when the rule is played. -/
  text : Option String := none
  deriving DecidableEq

namespace Rule

/-- Whether two rules agree in all but their texts. -/
def agrees (a b : Rule) : Bool := { a with text := none } = { b with text := none }

/-- Whether the rule stands for others. -/
def hasTemplate (r : Rule) : Bool :=
  r.target.isTemplate || r.context.hasTemplate || r.cost.hasTemplate || r.payload.hasTemplate ||
    r.gain.hasTemplate

/-- An identifier in words: a dot reads `with`. -/
def inWords (s : List Char) : String := String.ofList (replaceChar '.' " with ".toList s)

/-- What the player reads, e.g. `Drag the hero onto the door. `. -/
def description (r : Rule) : String :=
  let target := inWords r.target.value.toList
  if r.cost.isEmpty then s!"Poke the {target}. "
  else
    let cost := inWords (join " and ".toList (r.cost.values.map String.toList))
    s!"Drag the {cost} onto the {target}. "

/-- A set between parentheses. -/
def inParens (s : TagSet) : String := "(" ++ s.render ++ ")"

/-- A set between braces. -/
def inBraces (s : TagSet) : String := "\x7b" ++ s.render ++ "\x7d"

/-- The context of a head; an empty one is written only in front of a dropped cost. -/
def contextText (r : Rule) : String :=
  if !r.context.isEmpty then inParens r.context else if r.drag then "" else "()"

/-- The cost of a head: `{cost}-` is paid in hand, `-{cost}` dropped from the scene. -/
def costText (r : Rule) : String :=
  if r.cost.isEmpty then (if r.drag && r.context.isEmpty then "()-" else "-")
  else if r.drag then inBraces r.cost ++ "-"
  else "-" ++ inBraces r.cost

/-- Payload and gain of a head; when both are empty, an empty payload stands for them. -/
def outcomeText (r : Rule) : String :=
  (if r.payload.isEmpty then "" else inParens r.payload) ++
    (if r.gain.isEmpty then "" else inBraces r.gain) ++
    (if r.payload.isEmpty && r.gain.isEmpty then "()" else "")

/-- The written form of a rule without its opening sign. -/
def head (r : Rule) : String :=
  r.contextText ++ r.costText ++ "[" ++ r.target.raw ++ "]->" ++ r.outcomeText

/-- The written form of a rule. -/
def render (r : Rule) : String := "++ " ++ r.head

end Rule

end StoryTape
