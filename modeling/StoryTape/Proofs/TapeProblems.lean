import StoryTape.Tape.Problem
import StoryTape.Proofs.AscendingLists
import StoryTape.Proofs.StoredLines

/-!
# Where the problems of a tape come from

Every problem that is listed of a tape is one: a missing text has no line and is asked for by a
rule, a node or a choice, a missing target is no node and is led to by a choice or a goto, and a bad
range lies beyond its lines. Each is listed with the place that it was found in.
-/

namespace StoryTape

open Text

/-- Texts that open differently are different. -/
theorem append_ne_append {a b : String} (h : ¬ a.toList <+: b.toList) (h' : ¬ b.toList <+: a.toList)
    (s t : String) : a ++ s ≠ b ++ t := by
  intro hsame
  have hlists := congrArg String.toList hsame
  rw [String.toList_append, String.toList_append] at hlists
  have hb : b.toList <+: a.toList ++ s.toList := hlists ▸ List.prefix_append _ _
  exact (List.prefix_or_prefix_of_prefix (List.prefix_append _ _) hb).elim h h'

namespace TextBook

variable {b : TextBook} {key name place place' : String}

/-- The check of a key finds fault with a key that is no signal and has no line. -/
theorem mem_checkText_iff {p : TapeProblem} :
    p ∈ b.checkText place key ↔
      isSignal key = false ∧ b.hasLine key = false ∧ p = .missingText key place := by
  rw [checkText]
  cases hsignal : isSignal key <;> cases hline : b.hasLine key <;> simp

/-- The check of a target finds fault with a name that is no node and has no line. -/
theorem mem_checkTarget_iff {p : TapeProblem} :
    p ∈ b.checkTarget place name ↔
      b.route? name = none ∧ b.hasLine name = false ∧ p = .missingTarget name place := by
  rw [checkTarget]
  cases hroute : b.route? name <;> cases hline : b.hasLine name <;> simp

/-- The check of a range finds fault with a range that does not lie within the lines. -/
theorem mem_checkRange_iff {p : TapeProblem} {r : LineRange} :
    p ∈ b.checkRange name r ↔
      ¬ (r.start ≤ r.stop ∧ r.stop ≤ b.lineCount name) ∧
        p = .badRange name r.start r.stop (b.lineCount name) := by
  simp only [checkRange]
  split
  · next hbad =>
    rw [Bool.or_eq_true, decide_eq_true_eq, decide_eq_true_eq] at hbad
    have hout : ¬ (r.start ≤ r.stop ∧ r.stop ≤ b.lineCount name) := by omega
    simp [hout]
  · next hgood =>
    rw [Bool.or_eq_true, decide_eq_true_eq, decide_eq_true_eq] at hgood
    have hin : r.start ≤ r.stop ∧ r.stop ≤ b.lineCount name := by omega
    simp [hin]

/-- The problem of a rule is a text that is missing. -/
theorem of_mem_checkRule {p : TapeProblem} {r : Rule} {number : Nat}
    (h : p ∈ b.checkRule r number) :
    ∃ key, ∃ number target : String, b.hasLine key = false ∧
      p = .missingText key s!"rule {number} [{target}]" := by
  rw [checkRule] at h
  split at h
  · cases h
  · next key _ =>
    split at h
    · cases h
    · obtain ⟨-, hline, hp⟩ := mem_checkText_iff.mp h
      exact ⟨key, countText number, r.target.raw, hline, hp⟩

/-- The problems of a node are those of its texts, of its choices and of its goto. -/
theorem mem_checkNode_iff {p : TapeProblem} {node : DialogueNode} :
    p ∈ b.checkNode (name, node) ↔
      (∃ key ∈ node.text, p ∈ b.checkText s!"route node '{name}'" key) ∨
      (∃ c ∈ node.choices, p ∈ b.checkText s!"choice of route node '{name}'" c.label ∨
        p ∈ b.checkTarget s!"stitch of route node '{name}'" c.next) ∨
      ∃ goto ∈ node.goto, p ∈ b.checkTarget s!"goto of route node '{name}'" goto := by
  simp only [checkNode, checkChoice, List.mem_append, List.mem_flatMap, Option.mem_toList,
    Option.mem_def, or_assoc]

end TextBook

namespace Tape

variable {t : Tape} {p : TapeProblem}

/-- The problems of a tape are those of its rules, nodes and ranges. -/
theorem mem_problems_iff :
    p ∈ t.problems ↔
      (∃ r i, (r, i) ∈ t.rules.zipIdx ∧ p ∈ t.text.checkRule r (i + 1)) ∨
      (∃ name node, t.text.route? name = some node ∧ p ∈ t.text.checkNode (name, node)) ∨
      ∃ name, ∃ r ∈ t.text.rangesOf name, p ∈ t.text.checkRange name r := by
  have hranges : (∃ entry ∈ t.text.ranges.entries, ∃ r ∈ entry.2, p ∈ t.text.checkRange entry.1 r) ↔
      ∃ name, ∃ r ∈ t.text.rangesOf name, p ∈ t.text.checkRange name r := by
    constructor
    · rintro ⟨⟨name, ranges⟩, hentry, r, hr, hp⟩
      refine ⟨name, r, ?_, hp⟩
      rw [TextBook.rangesOf, Dict.get?_eq_some_iff.mpr hentry]
      exact hr
    · rintro ⟨name, r, hr, hp⟩
      rw [TextBook.rangesOf] at hr
      cases hget : t.text.ranges.get? name with
      | none =>
        rw [hget] at hr
        cases hr
      | some ranges =>
        rw [hget] at hr
        exact ⟨(name, ranges), Dict.get?_eq_some_iff.mp hget, r, hr, hp⟩
  simp only [problems, List.mem_append, List.mem_flatMap, or_assoc, hranges, Prod.exists,
    TextBook.route?, Dict.get?_eq_some_iff]

/-- A missing text has no line, and a rule, a node or a choice asks for it. -/
theorem of_missingText {key place : String} (h : .missingText key place ∈ t.problems) :
    t.text.hasLine key = false ∧
      ((∃ number target : String, place = s!"rule {number} [{target}]") ∨
        ∃ name node, t.text.route? name = some node ∧
          ((key ∈ node.text ∧ place = s!"route node '{name}'") ∨
            ∃ c ∈ node.choices, c.label = key ∧ place = s!"choice of route node '{name}'")) := by
  rcases mem_problems_iff.mp h with ⟨r, i, -, hrule⟩ | ⟨name, node, hnode, hp⟩ | ⟨name, r, -, hp⟩
  · obtain ⟨key', number, target, hline, hp⟩ := TextBook.of_mem_checkRule hrule
    cases hp
    exact ⟨hline, .inl ⟨number, target, rfl⟩⟩
  · rcases TextBook.mem_checkNode_iff.mp hp with
      ⟨key', hkey, hp⟩ | ⟨c, hc, hp | hp⟩ | ⟨goto, -, hp⟩
    · obtain ⟨-, hline, hp⟩ := TextBook.mem_checkText_iff.mp hp
      cases hp
      exact ⟨hline, .inr ⟨name, node, hnode, .inl ⟨hkey, rfl⟩⟩⟩
    · obtain ⟨-, hline, hp⟩ := TextBook.mem_checkText_iff.mp hp
      cases hp
      exact ⟨hline, .inr ⟨name, node, hnode, .inr ⟨c, hc, rfl, rfl⟩⟩⟩
    · cases (TextBook.mem_checkTarget_iff.mp hp).2.2
    · cases (TextBook.mem_checkTarget_iff.mp hp).2.2
  · cases (TextBook.mem_checkRange_iff.mp hp).2

/-- A missing target is no node, and a choice or a goto leads to it. -/
theorem of_missingTarget {target place : String} (h : .missingTarget target place ∈ t.problems) :
    t.text.route? target = none ∧ ∃ name node, t.text.route? name = some node ∧
      ((∃ c ∈ node.choices, c.next = target ∧ place = s!"stitch of route node '{name}'") ∨
        node.goto = some target ∧ place = s!"goto of route node '{name}'") := by
  rcases mem_problems_iff.mp h with ⟨r, i, -, hrule⟩ | ⟨name, node, hnode, hp⟩ | ⟨name, r, -, hp⟩
  · obtain ⟨_, _, _, -, hp⟩ := TextBook.of_mem_checkRule hrule
    cases hp
  · rcases TextBook.mem_checkNode_iff.mp hp with
      ⟨key', hkey, hp⟩ | ⟨c, hc, hp | hp⟩ | ⟨goto, hgoto, hp⟩
    · cases (TextBook.mem_checkText_iff.mp hp).2.2
    · cases (TextBook.mem_checkText_iff.mp hp).2.2
    · obtain ⟨hroute, -, hp⟩ := TextBook.mem_checkTarget_iff.mp hp
      cases hp
      exact ⟨hroute, name, node, hnode, .inl ⟨c, hc, rfl, rfl⟩⟩
    · obtain ⟨hroute, -, hp⟩ := TextBook.mem_checkTarget_iff.mp hp
      cases hp
      exact ⟨hroute, name, node, hnode, .inr ⟨hgoto, rfl⟩⟩
  · cases (TextBook.mem_checkRange_iff.mp hp).2

/-- Ranges that lie within their lines are no problem. -/
theorem not_badRange (h : t.text.Ranged) {name : String} {start stop count : Nat} :
    .badRange name start stop count ∉ t.problems := by
  intro hbad
  rcases mem_problems_iff.mp hbad with
    ⟨r, i, -, hrule⟩ | ⟨name, node, -, hp⟩ | ⟨name, r, hr, hp⟩
  · obtain ⟨_, _, _, -, hp⟩ := TextBook.of_mem_checkRule hrule
    cases hp
  · rcases TextBook.mem_checkNode_iff.mp hp with ⟨_, -, hp⟩ | ⟨_, -, hp | hp⟩ | ⟨_, -, hp⟩
    · cases (TextBook.mem_checkText_iff.mp hp).2.2
    · cases (TextBook.mem_checkText_iff.mp hp).2.2
    · cases (TextBook.mem_checkTarget_iff.mp hp).2.2
    · cases (TextBook.mem_checkTarget_iff.mp hp).2.2
  · exact (TextBook.mem_checkRange_iff.mp hp).1 (h name r hr)

/-- A missing text listed of a node is one of its texts. -/
theorem of_missingText_node {key name : String}
    (h : .missingText key s!"route node '{name}'" ∈ t.problems) :
    t.text.hasLine key = false ∧ ∃ node, t.text.route? name = some node ∧ key ∈ node.text := by
  obtain ⟨hline, hplaces⟩ := of_missingText h
  rcases hplaces with
    ⟨number, target, hplace⟩ | ⟨name', node, hnode, ⟨hkey, hplace⟩ | ⟨c, -, -, hplace⟩⟩
  · simp only [toString, String.append_assoc] at hplace
    exact absurd hplace (append_ne_append (by decide) (by decide) _ _)
  · obtain rfl : name = name' := by simpa [toString] using hplace
    exact ⟨hline, node, hnode, hkey⟩
  · simp only [toString, String.append_assoc] at hplace
    exact absurd hplace (append_ne_append (by decide) (by decide) _ _)

/-- A missing text listed of a choice is its label. -/
theorem of_missingText_choice {key name : String}
    (h : .missingText key s!"choice of route node '{name}'" ∈ t.problems) :
    t.text.hasLine key = false ∧
      ∃ node, t.text.route? name = some node ∧ ∃ c ∈ node.choices, c.label = key := by
  obtain ⟨hline, hplaces⟩ := of_missingText h
  rcases hplaces with
    ⟨number, target, hplace⟩ | ⟨name', node, hnode, ⟨-, hplace⟩ | ⟨c, hc, hkey, hplace⟩⟩
  · simp only [toString, String.append_assoc] at hplace
    exact absurd hplace (append_ne_append (by decide) (by decide) _ _)
  · simp only [toString, String.append_assoc] at hplace
    exact absurd hplace (append_ne_append (by decide) (by decide) _ _)
  · obtain rfl : name = name' := by simpa [toString] using hplace
    exact ⟨hline, node, hnode, c, hc, hkey⟩

/-- A missing target listed of a choice is where it leads. -/
theorem of_missingTarget_choice {target name : String}
    (h : .missingTarget target s!"stitch of route node '{name}'" ∈ t.problems) :
    t.text.route? target = none ∧
      ∃ node, t.text.route? name = some node ∧ ∃ c ∈ node.choices, c.next = target := by
  obtain ⟨hroute, name', node, hnode, ⟨c, hc, hnext, hplace⟩ | ⟨-, hplace⟩⟩ := of_missingTarget h
  · obtain rfl : name = name' := by simpa [toString] using hplace
    exact ⟨hroute, node, hnode, c, hc, hnext⟩
  · simp only [toString, String.append_assoc] at hplace
    exact absurd hplace (append_ne_append (by decide) (by decide) _ _)

end Tape

end StoryTape
