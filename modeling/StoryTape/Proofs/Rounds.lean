import StoryTape.TagSet.Expand

/-!
# Rounds of a worklist

A worklist holds the sets that an expansion still has to look at. The run of a worklist is cut
into the runs of its sets, one after the other: a set is worked off without fault, or ends with
one, or keeps the run going for ever. A set is worked off exactly when no endless chain of
replacements starts at it.
-/

namespace StoryTape

namespace Worklist

/-- The result after at most the given number of rounds. -/
def resultWithin (pool : TagSet) : Nat → Worklist → Option (Expanded (List TagSet))
  | 0, _ => none
  | n + 1, l =>
    match l.round pool with
    | .inl result => some result
    | .inr next => resultWithin pool n next

/-- A run has the result that comes after finitely many rounds, and no other. -/
theorem run_eq_some_iff {pool : TagSet} {l : Worklist} {r : Expanded (List TagSet)} :
    l.run pool = some r ↔ ∃ n, resultWithin pool n l = some r := by
  constructor
  · intro h
    refine run.partial_correctness pool (fun l r => ∃ n, resultWithin pool n l = some r) ?_ l r h
    intro run ih l r h
    split at h
    · next result hround => exact ⟨1, by simp only [resultWithin, hround]; exact h⟩
    · next next hround =>
      obtain ⟨n, hn⟩ := ih next r h
      exact ⟨n + 1, by simp only [resultWithin, hround]; exact hn⟩
  · rintro ⟨n, hn⟩
    induction n generalizing l with
    | zero => simp [resultWithin] at hn
    | succ n ih =>
      rw [run]
      cases hround : l.round pool with
      | inl result => simpa only [resultWithin, hround] using hn
      | inr next => exact ih (by simpa only [resultWithin, hround] using hn)

/-- All sets are worked off without fault. -/
inductive Clears (pool : TagSet) : List TagSet → Prop
  | nil : Clears pool []
  | keep {s : TagSet} {rest : List TagSet} (h : s.replacements pool = .ok none)
      (hrest : Clears pool rest) : Clears pool (s :: rest)
  | replace {s : TagSet} {sets rest : List TagSet} (h : s.replacements pool = .ok (some sets))
      (hrest : Clears pool (sets ++ rest)) : Clears pool (s :: rest)

/-- The sets come to an end: all are worked off, or a fault is met on the way. -/
inductive Halts (pool : TagSet) : List TagSet → Prop
  | nil : Halts pool []
  | fault {s : TagSet} {rest : List TagSet} {fault : ExpansionFault}
      (h : s.replacements pool = .error fault) : Halts pool (s :: rest)
  | keep {s : TagSet} {rest : List TagSet} (h : s.replacements pool = .ok none)
      (hrest : Halts pool rest) : Halts pool (s :: rest)
  | replace {s : TagSet} {sets rest : List TagSet} (h : s.replacements pool = .ok (some sets))
      (hrest : Halts pool (sets ++ rest)) : Halts pool (s :: rest)

variable {pool : TagSet}

/-- Sets that have a result come to an end. -/
theorem halts_of_resultWithin {n : Nat} {pending resolved : List TagSet}
    {r : Expanded (List TagSet)} (h : resultWithin pool n ⟨pending, resolved⟩ = some r) :
    Halts pool pending := by
  induction n generalizing pending resolved with
  | zero => simp [resultWithin] at h
  | succ n ih =>
    cases pending with
    | nil => exact .nil
    | cons s rest =>
      simp only [resultWithin, round] at h
      cases hs : s.replacements pool with
      | error fault => exact .fault hs
      | ok found =>
        rw [hs] at h
        cases found with
        | none => exact .keep hs (ih h)
        | some sets => exact .replace hs (ih h)

/-- Sets that come to an end have a result, whatever is resolved before them. -/
theorem resultWithin_of_halts {pending : List TagSet} (h : Halts pool pending)
    (resolved : List TagSet) : ∃ n r, resultWithin pool n ⟨pending, resolved⟩ = some r := by
  induction h generalizing resolved with
  | nil => exact ⟨1, .ok resolved.reverse, rfl⟩
  | fault h => exact ⟨1, _, by simp only [resultWithin, round, h]; rfl⟩
  | @keep s rest h _ ih =>
    obtain ⟨n, r, hn⟩ := ih (s :: resolved)
    exact ⟨n + 1, r, by simp only [resultWithin, round, h]; exact hn⟩
  | replace h _ ih =>
    obtain ⟨n, r, hn⟩ := ih resolved
    exact ⟨n + 1, r, by simp only [resultWithin, round, h]; exact hn⟩

/-- Sets that are worked off one after the other are worked off together. -/
theorem Clears.append {xs ys : List TagSet} (hx : Clears pool xs) (hy : Clears pool ys) :
    Clears pool (xs ++ ys) := by
  induction hx with
  | nil => exact hy
  | keep h _ ih => exact .keep h ih
  | replace h _ ih =>
    rw [List.append_assoc] at ih
    exact .replace h ih

/-- Sets come to an end if the first of them are worked off and the others come to one. -/
theorem Clears.halts_append {xs ys : List TagSet} (hx : Clears pool xs) (hy : Halts pool ys) :
    Halts pool (xs ++ ys) := by
  induction hx with
  | nil => exact hy
  | keep h _ ih => exact .keep h ih
  | replace h _ ih =>
    rw [List.append_assoc] at ih
    exact .replace h ih

/-- Sets that come to an end are worked off, or end the run whatever comes after them. -/
theorem Halts.clears_or_halts_append {xs : List TagSet} (h : Halts pool xs) :
    Clears pool xs ∨ ∀ ys, Halts pool (xs ++ ys) := by
  induction h with
  | nil => exact .inl .nil
  | fault h => exact .inr fun _ => .fault h
  | keep h _ ih => exact ih.imp (.keep h) fun ih ys => .keep h (ih ys)
  | replace h _ ih =>
    refine ih.imp (.replace h) fun ih ys => .replace h ?_
    have hall := ih ys
    rwa [List.append_assoc] at hall

/-- The run gets from a set to one of its replacements: those in front of it are worked off. -/
def Leads (pool s s' : TagSet) : Prop :=
  ∃ before after, s.replacements pool = .ok (some (before ++ s' :: after)) ∧ Clears pool before

/-- No endless chain of replacements starts at a set that is reached before the end. -/
theorem Halts.acc {pending : List TagSet} (h : Halts pool pending) {before after : List TagSet}
    {s : TagSet} (hpending : pending = before ++ s :: after) (hbefore : Clears pool before) :
    Acc (fun s' s => Leads pool s s') s := by
  -- The set is in front and is replaced, or it moves forward while those before it are cleared.
  induction h generalizing before after s with
  | nil => simp at hpending
  | @fault x _ _ h =>
    cases before with
    | nil =>
      obtain ⟨rfl, -⟩ := List.cons.inj hpending
      refine ⟨_, fun s' hlead => ?_⟩
      obtain ⟨_, _, hsets, -⟩ := hlead
      rw [h] at hsets
      cases hsets
    | cons x' before =>
      obtain ⟨rfl, -⟩ := List.cons.inj hpending
      cases hbefore <;> simp_all
  | @keep x _ h _ ih =>
    cases before with
    | nil =>
      obtain ⟨rfl, -⟩ := List.cons.inj hpending
      refine ⟨_, fun s' hlead => ?_⟩
      obtain ⟨_, _, hsets, -⟩ := hlead
      rw [h] at hsets
      cases hsets
    | cons x' before =>
      obtain ⟨rfl, hrest⟩ := List.cons.inj hpending
      cases hbefore with
      | keep _ hbefore => exact ih hrest hbefore
      | replace h' _ => rw [h] at h'; cases h'
  | @replace x sets rest h _ ih =>
    cases before with
    | nil =>
      obtain ⟨rfl, rfl⟩ := List.cons.inj hpending
      refine ⟨_, fun s' hlead => ?_⟩
      obtain ⟨first, last, hsets, hfirst⟩ := hlead
      rw [h] at hsets
      obtain rfl := Option.some.inj (Except.ok.inj hsets)
      exact ih (List.append_assoc first (s' :: last) rest) hfirst
    | cons x' before =>
      obtain ⟨rfl, rfl⟩ := List.cons.inj hpending
      cases hbefore with
      | keep h' _ => rw [h] at h'; cases h'
      | replace h' hbefore =>
        rw [h] at h'
        obtain rfl := Option.some.inj (Except.ok.inj h')
        exact ih (List.append_assoc sets before (s :: after)).symm hbefore

/-- Sets come to an end when each one that the run gets to does so on its own. -/
theorem halts_of_each {sets : List TagSet}
    (h : ∀ before s after, sets = before ++ s :: after → Clears pool before → Halts pool [s]) :
    Halts pool sets := by
  have key : ∀ after before, sets = before ++ after → Clears pool before → Halts pool after := by
    intro after
    induction after with
    | nil => exact fun _ _ _ => .nil
    | cons s after ih =>
      intro before hsets hbefore
      rcases (h before s after hsets hbefore).clears_or_halts_append with hclear | hhalts
      · have hrest : Halts pool after :=
          ih (before ++ [s]) (by rw [hsets, List.append_assoc]; rfl) (hbefore.append hclear)
        exact hclear.halts_append hrest
      · exact hhalts after
  exact key sets [] rfl .nil

/-- A set comes to an end exactly when no endless chain of replacements starts at it. -/
theorem halts_iff_acc {s : TagSet} :
    Halts pool [s] ↔ Acc (fun s' s => Leads pool s s') s := by
  constructor
  · intro h
    exact h.acc (List.nil_append [s]).symm .nil
  · intro h
    induction h with
    | intro s _ ih =>
      cases hs : s.replacements pool with
      | error fault => exact .fault hs
      | ok found =>
        cases found with
        | none => exact .keep hs .nil
        | some sets =>
          refine .replace hs ?_
          rw [List.append_nil]
          refine halts_of_each fun before s' after hsets hbefore => ?_
          exact ih s' ⟨before, after, by rw [hs, hsets], hbefore⟩

end Worklist

namespace TagSet

/-- Whether the expansion of a set comes to an end: after finitely many rounds there are the sets
it stands for, or a fault. -/
def ExpansionEnds (s pool : TagSet) : Prop :=
  ∃ n r, Worklist.resultWithin pool n { pending := [s] } = some r

/-- The expansion of a set ends when the work on it comes to an end. -/
theorem expansionEnds_iff_halts {s pool : TagSet} :
    s.ExpansionEnds pool ↔ Worklist.Halts pool [s] :=
  ⟨fun ⟨_, _, h⟩ => Worklist.halts_of_resultWithin h, fun h => Worklist.resultWithin_of_halts h []⟩

/-- What is found within some number of rounds is the expansion. -/
theorem expand_of_resultWithin {s pool : TagSet} {n : Nat} {r : Expanded (List TagSet)}
    (h : Worklist.resultWithin pool n { pending := [s] } = some r) : s.expand pool = r := by
  rw [expand, Worklist.run_eq_some_iff.mpr ⟨n, h⟩, Option.getD_some]

end TagSet

end StoryTape
