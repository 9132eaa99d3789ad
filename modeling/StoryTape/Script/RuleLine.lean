import StoryTape.Script.Grammar
import StoryTape.Rule

/-!
# Rule lines

A rule line is the head of a rule, `(context)cost[target]->(payload){gain}`, and possibly a text:
`#NAME sentence|sentence`. Context, payload and gain may be left out. A line whose gain has a
concrete tag with the identifier of a concrete cost is refused.
-/

namespace StoryTape.Script

open Text

/-- The text of a rule line. -/
structure RuleText where
  /-- The name the sentences are stored under. -/
  name : String
  /-- The sentences; none when the line only names a text. -/
  sentences : List String
  deriving DecidableEq, Repr

/-- A rule line. -/
structure RuleLine where
  /-- The rule it declares. -/
  rule : Rule
  /-- The text it carries. -/
  text : Option RuleText
  deriving DecidableEq

/-- The pieces of a rule line before their tags are read. -/
structure RuleShape where
  context : List (List Char)
  cost : List (List Char)
  drag : Bool
  target : List Char
  payload : List (List Char)
  gain : List (List Char)
  text : Option RuleText

/-- A group that may be left out. -/
def readOptional (read : List Char → Option (List (List Char) × List Char)) (s : List Char) :
    List (List Char) × List Char :=
  (read s).getD ([], s)

/-- The cost of a rule: `{cost}-` in hand, `-{cost}` from the scene, or `-` for none. -/
def readCost (s : List Char) : Option (List (List Char) × Bool × List Char) :=
  match readBraces s with
  | some (tokens, s) =>
    match skipGap s with
    | '-' :: rest => some (tokens, true, rest)
    | _ => none
  | none =>
    match skipGap s with
    | '-' :: s =>
      match readBraces s with
      | some (tokens, rest) => some (tokens, false, rest)
      | none => some ([], true, s)
    | _ => none

/-- The target of a rule, `[target]->`. -/
def readTarget (s : List Char) : Option (List Char × List Char) := do
  let '[' :: s := skipGap s | none
  let (token, s) ← readToken (skipGap s)
  let ']' :: s := skipGap s | none
  let '-' :: '>' :: rest := skipGap s | none
  return (token, rest)

/-- The text of a rule up to the end of the line. -/
def readRuleText (s : List Char) : Option (Option RuleText) :=
  match skipGap s with
  | [] => some none
  | '#' :: s => do
    let (name, s) ← readName s
    let name := String.ofList name
    if atEnd s then return some ⟨name, []⟩
    return some ⟨name, ← readLoop s⟩
  | _ => none

/-- The pieces of a rule line. -/
def readRuleShape (s : List Char) : Option RuleShape := do
  let (context, s) := readOptional readParens s
  let (cost, drag, s) ← readCost s
  let (target, s) ← readTarget s
  let (payload, s) := readOptional readParens s
  let (gain, s) := readOptional readBraces s
  let text ← readRuleText s
  return { context, cost, drag, target, payload, gain, text }

/-- The first concrete gain whose identifier a concrete cost has. -/
def gainInCost? (gain cost : TagSet) : Option Tag :=
  gain.tags.find? fun g =>
    !g.isTemplate && cost.tags.any fun c => !c.isTemplate && c.value == g.value

/-- Read the content of a rule line. -/
def parseRuleLine (source : String) : Checked RuleLine :=
  match readRuleShape source.toList with
  | none => .error (malformed .rule source.toList)
  | some shape => do
    let context ← setOfTokens .rule shape.context
    let cost ← setOfTokens .rule shape.cost
    let target ← (Tag.parse (String.ofList shape.target)).inPhase .rule
    let payload ← setOfTokens .rule shape.payload
    let gain ← setOfTokens .rule shape.gain
    if let some g := gainInCost? gain cost then
      throw { cause := .gainIsCost g.raw target.raw, phase := .rule }
    let text := shape.text.map RuleText.name
    return ⟨{ target, context, cost, payload, gain, drag := shape.drag, text }, shape.text⟩

end StoryTape.Script
