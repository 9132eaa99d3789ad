import Mathlib.Data.List.Nodup
import Mathlib.Data.List.Perm.Subperm
import Mathlib.Data.Nat.Find
import StoryTape.Proofs.RuleExpansion

/-!
# Labels of actions

The word that is added to a description that is taken stays as it is in lower case, and what stands
in front of it is written in lower case as it would be alone. So the marked descriptions differ from
each other in lower case, one of them is new, and an action on a list is the one found under its own
description, however its letters are written.
-/

namespace StoryTape

open Text

namespace Text

/-- A character that is neither passed over nor cased shows that no cased one follows before it. -/
theorem meetsCased_append_cons {c : Char} (hstop : isCaseIgnorable c = false)
    (hcase : isCased c = false) (s t : List Char) : meetsCased (s ++ c :: t) = meetsCased s := by
  have hopen : (c :: t).dropWhile isCaseIgnorable = c :: t := by simp [hstop]
  simp only [meetsCased, List.dropWhile_append, hopen]
  cases hrest : s.dropWhile isCaseIgnorable with
  | nil => simp [hcase]
  | cons d r => simp

/-- In front of such a character a text is written in lower case as it is alone. -/
theorem lowerAfter_append_cons {c : Char} (hstop : isCaseIgnorable c = false)
    (hcase : isCased c = false) (before s t : List Char) :
    lowerAfter before (s ++ c :: t) =
      lowerAfter before s ++ lowerAfter (s.reverse ++ before) (c :: t) := by
  induction s generalizing before with
  | nil => rfl
  | cons d s ih =>
    rw [List.cons_append, lowerAfter, lowerAfter, ih, meetsCased_append_cons hstop hcase]
    simp

end Text

namespace ActionList

/-- A description with a number of marks behind it. -/
def marked (description : String) : Nat → String
  | 0 => description
  | n + 1 => marked description n ++ duplicateMark

/-- To mark once more is to start with a mark behind the description. -/
theorem marked_succ (description : String) (n : Nat) :
    marked description (n + 1) = marked (description ++ duplicateMark) n := by
  induction n with
  | zero => rfl
  | succ n ih => rw [marked, ih, marked]

/-- A mark stays as it is in lower case, and changes nothing in front of it. -/
theorem lowerText_append_mark (description : String) :
    lowerText (description ++ duplicateMark) = lowerText description ++ duplicateMark := by
  have hmark : ∀ before, lowerAfter before duplicateMark.toList = duplicateMark.toList := by
    intro before
    rfl
  have hopen : duplicateMark.toList = ' ' :: "duplicate".toList := rfl
  rw [lowerText, lowerText, lower, lower, String.toList_append, hopen,
    lowerAfter_append_cons (by decide +kernel) (by decide +kernel), ← hopen, hmark,
    String.ofList_append, String.ofList_toList]

/-- Every mark makes a description longer, in lower case too, by as much. -/
theorem length_lowerText_marked (description : String) (n : Nat) :
    (lowerText (marked description n)).length =
      (lowerText description).length + n * duplicateMark.length := by
  induction n with
  | zero => simp [marked]
  | succ n ih =>
    rw [marked, lowerText_append_mark, String.length_append, ih, Nat.add_mul]
    omega

/-- Descriptions with different numbers of marks differ in lower case. -/
theorem lowerText_marked_injective (description : String) :
    Function.Injective fun n => lowerText (marked description n) := by
  intro m n h
  have hlength := congrArg String.length h
  have hmark : duplicateMark.length = 10 := rfl
  simp only [length_lowerText_marked, hmark] at hlength
  omega

/-- The descriptions of a list in lower case, which are taken. -/
def labels (actions : ActionList) : List String :=
  actions.entries.map fun a => lowerText a.description

/-- An action is found under a description when its label is taken. -/
theorem isSome_find?_iff {actions : ActionList} {description : String} :
    (actions.find? description).isSome = true ↔ lowerText description ∈ actions.labels := by
  simp [find?, labels]

/-- So many marks are needed, and no more, to make a description new. -/
structure NeedsMarks (actions : ActionList) (description : String) (n : Nat) : Prop where
  fresh : lowerText (marked description n) ∉ actions.labels
  taken : ∀ m < n, lowerText (marked description m) ∈ actions.labels

/-- At most as many marks as there are actions are needed. -/
theorem exists_needsMarks (actions : ActionList) (description : String) :
    ∃ n ≤ actions.entries.length, actions.NeedsMarks description n := by
  have hfresh : ∃ n ≤ actions.entries.length,
      lowerText (marked description n) ∉ actions.labels := by
    by_contra htaken
    simp only [not_exists, not_and, not_not] at htaken
    -- Then one description more than there are actions would be taken.
    have hnodup := List.Nodup.map (lowerText_marked_injective description)
      (List.nodup_range (n := actions.entries.length + 1))
    have hsubset : (List.range (actions.entries.length + 1)).map
        (fun n => lowerText (marked description n)) ⊆ actions.labels := by
      intro label hlabel
      obtain ⟨n, hn, rfl⟩ := List.mem_map.mp hlabel
      exact htaken n (Nat.le_of_lt_succ (List.mem_range.mp hn))
    have hlength := (List.subperm_of_subset hnodup hsubset).length_le
    simp only [labels, List.length_map, List.length_range] at hlength
    omega
  obtain ⟨n, hn, hnew⟩ := hfresh
  have hexists : ∃ n, lowerText (marked description n) ∉ actions.labels := ⟨n, hnew⟩
  have hle : Nat.find hexists ≤ n := Nat.find_min' hexists hnew
  exact ⟨Nat.find hexists, Nat.le_trans hle hn, Nat.find_spec hexists,
    fun m hm => not_not.mp (Nat.find_min hexists hm)⟩

/-- The loop that marks a description for as long as it is taken, run to its end. It makes a
description into another one. -/
inductive MarksWhileTaken (actions : ActionList) : String → String → Prop
  | free {description : String} (h : (actions.find? description).isSome = false) :
    MarksWhileTaken actions description description
  | taken {description last : String} (h : (actions.find? description).isSome = true)
    (rest : MarksWhileTaken actions (description ++ duplicateMark) last) :
    MarksWhileTaken actions description last

section Marks

variable {actions : ActionList} {description : String} {n : Nat}

/-- Once a description is marked, one mark less is needed. -/
theorem NeedsMarks.pred (h : actions.NeedsMarks description (n + 1)) :
    actions.NeedsMarks (description ++ duplicateMark) n where
  fresh := marked_succ description n ▸ h.fresh
  taken m hm := marked_succ description m ▸ h.taken (m + 1) (Nat.succ_lt_succ hm)

/-- The loop ends with the marks that are needed. -/
theorem NeedsMarks.marksWhileTaken (h : actions.NeedsMarks description n) :
    actions.MarksWhileTaken description (marked description n) := by
  induction n generalizing description with
  | zero => exact .free (Bool.eq_false_iff.mpr (mt isSome_find?_iff.mp h.fresh))
  | succ n ih =>
    rw [marked_succ]
    exact .taken (isSome_find?_iff.mpr (h.taken 0 (Nat.succ_pos n))) (ih h.pred)

/-- And so does the search among enough marks. -/
theorem NeedsMarks.freshDescription_eq (h : actions.NeedsMarks description n) {tries : Nat}
    (htries : n ≤ tries) : actions.freshDescription tries description = marked description n := by
  induction n generalizing description tries with
  | zero =>
    have hnew : (actions.find? description).isSome = false :=
      Bool.eq_false_iff.mpr (mt isSome_find?_iff.mp h.fresh)
    cases tries with
    | zero => rfl
    | succ tries =>
      rw [freshDescription, hnew]
      rfl
  | succ n ih =>
    obtain ⟨tries, rfl⟩ : ∃ k, tries = k + 1 := ⟨tries - 1, by omega⟩
    have htaken : (actions.find? description).isSome = true :=
      isSome_find?_iff.mpr (h.taken 0 (Nat.succ_pos n))
    rw [freshDescription, if_pos htaken, ih h.pred (by omega), marked_succ]

end Marks

/-- How an action is listed behind others: its text and its operations are kept, and the loop ends
with its description and the fewest marks that make it new. -/
structure ListsAs (earlier : ActionList) (pushed listed : Action) : Prop where
  push_eq : earlier.push pushed = ⟨earlier.entries ++ [listed]⟩
  loop_ends : earlier.MarksWhileTaken pushed.description listed.description
  text_eq : listed.text = pushed.text
  operations_eq : listed.operations = pushed.operations
  marks : ∃ n, listed.description = marked pushed.description n ∧
    earlier.NeedsMarks pushed.description n

/-- Every action can be listed behind others. -/
theorem exists_listsAs (earlier : ActionList) (pushed : Action) :
    ∃ listed, earlier.ListsAs pushed listed := by
  obtain ⟨n, hn, hneeds⟩ := earlier.exists_needsMarks pushed.description
  have hfresh := hneeds.freshDescription_eq hn
  refine ⟨{ pushed with description := marked pushed.description n }, ?_⟩
  exact ⟨by rw [push, hfresh], hneeds.marksWhileTaken, rfl, rfl, n, rfl, hneeds⟩

/-- The description an action is listed under was not taken. -/
theorem ListsAs.label_notMem {earlier : ActionList} {pushed listed : Action}
    (h : earlier.ListsAs pushed listed) : lowerText listed.description ∉ earlier.labels := by
  obtain ⟨n, hn, hneeds⟩ := h.marks
  exact hn ▸ hneeds.fresh

/-- The list that actions are pushed into one after the other. -/
def ofPushes (pushed : List Action) : ActionList := pushed.foldl push empty

/-- Actions pushed later go into the list of those pushed before. -/
theorem ofPushes_append (pushed later : List Action) :
    ofPushes (pushed ++ later) = later.foldl push (ofPushes pushed) :=
  List.foldl_append

/-- Pushing leaves what is listed where it is. -/
theorem exists_entries_foldl_push (actions : ActionList) (pushed : List Action) :
    ∃ later, (pushed.foldl push actions).entries = actions.entries ++ later ∧
      later.length = pushed.length := by
  induction pushed generalizing actions with
  | nil => exact ⟨[], by simp⟩
  | cons a pushed ih =>
    obtain ⟨later, hlater, hlength⟩ := ih (actions.push a)
    obtain ⟨listed, hlisted⟩ := actions.exists_listsAs a
    refine ⟨listed :: later, ?_, by rw [List.length_cons, hlength, List.length_cons]⟩
    rw [List.foldl_cons, hlater, hlisted.push_eq, List.append_assoc]
    rfl

/-- Every action that is pushed gets its entry. -/
theorem length_ofPushes (pushed : List Action) :
    (ofPushes pushed).entries.length = pushed.length := by
  obtain ⟨later, hlater, hlength⟩ := exists_entries_foldl_push empty pushed
  rw [ofPushes, hlater, List.length_append, hlength]
  simp [empty]

/-- An action is listed behind those that were pushed before it. -/
theorem exists_listsAs_append (before after : List Action) (a : Action) :
    ∃ listed later, (ofPushes (before ++ a :: after)).entries =
      (ofPushes before).entries ++ listed :: later ∧ (ofPushes before).ListsAs a listed := by
  obtain ⟨listed, hlisted⟩ := (ofPushes before).exists_listsAs a
  obtain ⟨later, hlater, -⟩ := exists_entries_foldl_push ((ofPushes before).push a) after
  refine ⟨listed, later, ?_, hlisted⟩
  rw [ofPushes_append, List.foldl_cons, hlater, hlisted.push_eq, List.append_assoc]
  rfl

/-- So each action is listed in its place. -/
theorem exists_listsAs_getElem (pushed : List Action) (i : Fin pushed.length) :
    ∃ listed, (ofPushes pushed).entries[i]? = some listed ∧
      ListsAs ⟨(ofPushes pushed).entries.take i⟩ pushed[i] listed := by
  have hsplit : pushed.take i ++ pushed[i] :: pushed.drop (i + 1) = pushed := by simp
  obtain ⟨listed, later, hentries, hlisted⟩ :=
    exists_listsAs_append (pushed.take i) (pushed.drop (i + 1)) pushed[i]
  rw [hsplit] at hentries
  have hlength : (ofPushes (pushed.take i)).entries.length = i := by
    rw [length_ofPushes, List.length_take]
    omega
  refine ⟨listed, ?_, ?_⟩
  · rw [hentries, Fin.getElem?_fin, List.getElem?_append_right (Nat.le_of_eq hlength), hlength]
    simp
  · rwa [hentries, List.take_left' hlength]

/-- No two descriptions are the same in lower case. -/
theorem nodup_labels_ofPushes (pushed : List Action) : (ofPushes pushed).labels.Nodup := by
  have hfold : ∀ actions : ActionList, actions.labels.Nodup →
      (pushed.foldl push actions).labels.Nodup := by
    induction pushed with
    | nil => exact fun _ h => h
    | cons a pushed ih =>
      intro actions h
      obtain ⟨listed, hlisted⟩ := actions.exists_listsAs a
      refine ih (actions.push a) ?_
      rw [hlisted.push_eq, labels, List.map_append, List.map_singleton, ← List.concat_eq_append]
      exact h.concat hlisted.label_notMem
  exact hfold empty List.nodup_nil

/-- An action is found under its description, however its letters are written. -/
theorem find?_eq_some {actions : ActionList} (h : actions.labels.Nodup) {a : Action}
    (ha : a ∈ actions.entries) {description : String}
    (hsame : lowerText description = lowerText a.description) :
    actions.find? description = some a := by
  have hsome : (actions.find? description).isSome = true :=
    isSome_find?_iff.mpr (List.mem_map.mpr ⟨a, ha, hsame.symm⟩)
  obtain ⟨b, hb⟩ := Option.isSome_iff_exists.mp hsome
  have hlabel : lowerText b.description = lowerText a.description := by
    rw [← hsame]
    simpa [find?] using List.find?_some hb
  rw [hb, List.inj_on_of_nodup_map h (List.mem_of_find?_eq_some hb) ha hlabel]

/-- **Labels are unique.** Actions that are pushed into an empty list one after the other are listed
in this order, one for each. Each keeps its text and its operations and has its own description with
marks behind it, the fewest with which its lower case differs from that of every action before it;
the loop that adds them ends. So no two descriptions are the same in lower case, and under each of
them, in any letters that are the same in lower case, its own action is found. -/
theorem pushed_labels_unique (pushed : List Action) :
    (ofPushes pushed).entries.length = pushed.length ∧
      (∀ i : Fin pushed.length, ∃ listed, (ofPushes pushed).entries[i]? = some listed ∧
        ListsAs ⟨(ofPushes pushed).entries.take i⟩ pushed[i] listed) ∧
      (ofPushes pushed).labels.Nodup ∧
      ∀ a ∈ (ofPushes pushed).entries, ∀ description,
        lowerText description = lowerText a.description →
          (ofPushes pushed).find? description = some a :=
  ⟨length_ofPushes pushed, exists_listsAs_getElem pushed, nodup_labels_ofPushes pushed,
    fun _ ha _ => find?_eq_some (nodup_labels_ofPushes pushed) ha⟩

/-! ### Three times the king

The mark of the second poke is part of its own description, so the third one needs two. -/

namespace Pokes

def soft : Action := ⟨"Poke the king. ", none, []⟩
def double : Action := ⟨"Poke the king.  duplicate", none, [.pushText "OUCH"]⟩
def loud : Action := ⟨"POKE THE KING. ", some "OUCH", []⟩

end Pokes

open Pokes in
/-- The loud poke is the one found under its two marks, written small. -/
theorem loud_poke_found :
    { loud with description := "POKE THE KING.  duplicate duplicate" } ∈
        (ofPushes [soft, double, loud]).entries ∧
      lowerText "poke the king.  duplicate duplicate" =
        lowerText "POKE THE KING.  duplicate duplicate" ∧
      (ofPushes [soft, double, loud]).find? "poke the king.  duplicate duplicate" =
        some { loud with description := "POKE THE KING.  duplicate duplicate" } := by
  have hlisted : { loud with description := "POKE THE KING.  duplicate duplicate" } ∈
      (ofPushes [soft, double, loud]).entries := by decide +kernel
  have hsame : lowerText "poke the king.  duplicate duplicate" =
      lowerText "POKE THE KING.  duplicate duplicate" := by decide +kernel
  exact ⟨hlisted, hsame, (pushed_labels_unique _).2.2.2 _ hlisted _ hsame⟩

end ActionList

end StoryTape
