import StoryTape.TagSet
import StoryTape.Tag.Expand

/-!
# Templates of tag sets

A set with templates stands for one set per choice of concrete tags. The sets still to be looked
at form a worklist: the first template of the next set is replaced by what it expands to, and the
new sets are looked at before the others, so the sets come in the order of the choices, the first
template varying slowest. Templates of a pool can expand into templates without end; then the
worklist never runs empty and the result is the fault `endless`.
-/

namespace StoryTape

/-- The replacements of a set's first template. A set without template is kept as it is, and so is
one whose first template expands to itself alone and cannot be interpreted. -/
def TagSet.replacements (s pool : TagSet) : Expanded (Option (List TagSet)) :=
  match s.firstTemplate? with
  | none => .ok none
  | some template => do
    let found ← template.expand pool.tags
    return if found = [template] then none else some (found.map (s.replace template))

/-- The state of an expansion. -/
structure Worklist where
  /-- The sets still to be looked at, the next one first. -/
  pending : List TagSet
  /-- The sets that are kept, the last one first. -/
  resolved : List TagSet := []
  deriving DecidableEq

namespace Worklist

/-- One round: the next set is kept or its replacements take its place. Without a next set, or
with a fault, there is a result. -/
def round (pool : TagSet) (l : Worklist) : Expanded (List TagSet) ⊕ Worklist :=
  match l.pending with
  | [] => .inl (.ok l.resolved.reverse)
  | s :: rest =>
    match s.replacements pool with
    | .error fault => .inl (.error fault)
    | .ok none => .inr ⟨rest, s :: l.resolved⟩
    | .ok (some sets) => .inr ⟨sets ++ rest, l.resolved⟩

/-- Round after round until there is a result. -/
def run (pool : TagSet) (l : Worklist) : Option (Expanded (List TagSet)) :=
  match l.round pool with
  | .inl result => some result
  | .inr next => next |>.run pool
partial_fixpoint

end Worklist

/-- The sets that a set stands for within a pool. -/
def TagSet.expand (s pool : TagSet) : Expanded (List TagSet) :=
  (Worklist.run pool { pending := [s] }).getD (.error .endless)

end StoryTape
