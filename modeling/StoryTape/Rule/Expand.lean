import StoryTape.Rule
import StoryTape.World
import StoryTape.TagSet.Expand

/-!
# Templates of rules

A rule with templates stands for concrete rules found in a world. Target, context and cost are
expanded against each location in turn, payload and gain against what the rule consumes. Of
rules that agree in all but their texts, only the first is kept.
-/

namespace StoryTape

namespace Rule

/-- The results of all elements in one list. -/
def collect {α β : Type} (xs : List α) (f : α → Expanded (List β)) : Expanded (List β) := do
  return (← xs.mapM f).flatten

/-- The concrete targets, location by location. -/
def targets (r : Rule) (w : World) : Expanded (List Tag) :=
  if r.target.isTemplate then collect w.locations fun l => r.target.expand l.tags.tags
  else .ok [r.target]

/-- The sets that a set stands for, location by location. -/
def expandPerLocation (s : TagSet) (w : World) : Expanded (List TagSet) :=
  if s.hasTemplate then collect w.locations fun l => s.expand l.tags else .ok [s]

/-- The sets that a set stands for within a pool. -/
def expandAgainst (s pool : TagSet) : Expanded (List TagSet) :=
  if s.hasTemplate then s.expand pool else .ok [s]

/-- The concrete rules that a rule stands for, repetitions included. -/
def variants (r : Rule) (w : World) : Expanded (List Rule) := do
  collect (← r.targets w) fun target => do
    collect (← expandPerLocation r.context w) fun context => do
      collect (← expandPerLocation r.cost w) fun cost => do
        let consumed := TagSet.union [.singleton target, context, cost]
        collect (← expandAgainst r.payload consumed) fun payload => do
          let gains ← expandAgainst r.gain consumed
          return gains.map fun gain => { r with target, context, cost, payload, gain }

/-- Add a rule to a rulebook unless one there agrees with it. -/
def addDistinct (book : List Rule) (r : Rule) : List Rule :=
  if book.any (·.agrees r) then book else book ++ [r]

/-- Add the concrete rules of a rule to a rulebook; a rule without template is added as it is. -/
def addTo (book : List Rule) (r : Rule) (w : World) : Expanded (List Rule) :=
  if r.hasTemplate then return (← r.variants w).foldl addDistinct book
  else return book ++ [r]

end Rule

/-- The concrete rules of all rules in order. -/
def expandRules (rules : List Rule) (w : World) : Expanded (List Rule) :=
  rules.foldlM (fun book r => r.addTo book w) []

end StoryTape
