import StoryTape.TagSet

/-!
# Dialogue

A dialogue is a graph of named nodes. A node shows lines and offers choices, each leading to
another node, or goes on to the node or text named by its goto.
-/

namespace StoryTape

/-- A choice of a dialogue node. -/
structure Choice where
  /-- The key of the short text that stands for the choice. -/
  label : String
  /-- The node it leads to. -/
  next : String
  /-- What has to be found in the scenes, or not. -/
  context : TagSet := .empty
  /-- What is paid in hand. -/
  cost : TagSet := .empty
  /-- What is laid out. -/
  payload : TagSet := .empty
  /-- What is taken in hand. -/
  gain : TagSet := .empty
  deriving DecidableEq

/-- A node of a dialogue. -/
structure DialogueNode where
  /-- The keys of the lines shown, the last one first. -/
  text : List String
  /-- The choices offered. -/
  choices : List Choice := []
  /-- Where to go when there are no choices. -/
  goto : Option String := none
  deriving DecidableEq

namespace DialogueNode

/-- Whether the dialogue ends here. -/
def isTerminal (n : DialogueNode) : Bool := n.choices.isEmpty && n.goto.isNone

/-- The keys in the order they are read. -/
def readingOrder (n : DialogueNode) : List String := n.text.reverse

end DialogueNode

end StoryTape
