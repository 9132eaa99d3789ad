import StoryTape.Script.Line
import StoryTape.Proofs.Pieces
import StoryTape.Proofs.Runs
import StoryTape.Proofs.Texts

/-!
# The declarations of a script

The lines of a script are read one after the other, and a declaration remembers nothing of those
before it but where it stands: behind other lines, the lines of a text that opens anew make the same
declarations under numbers moved on by as many lines as there are before them.
-/

namespace StoryTape.Script

open Text

/-! ### Numbered lines -/

/-- Lines trimmed and numbered, `before` lines standing before them. -/
def numberFrom (before : Nat) (lines : List (List Char)) : List (Nat × List Char) :=
  (lines.zipIdx before).map fun (line, i) => (i + 1, trimEnd line)

/-- Lines put together are numbered on. -/
theorem numberFrom_append (before : Nat) (xs ys : List (List Char)) :
    numberFrom before (xs ++ ys) = numberFrom before xs ++ numberFrom (before + xs.length) ys := by
  simp [numberFrom, List.zipIdx_append]

/-- More lines before them move the numbers of lines on. -/
theorem numberFrom_add (before more : Nat) (lines : List (List Char)) :
    numberFrom (before + more) lines =
      (numberFrom before lines).map fun (number, line) => (number + more, line) := by
  induction lines generalizing before with
  | nil => rfl
  | cons line lines ih =>
    have hnext : before + more + 1 = before + 1 + more := by omega
    have hrest := ih (before + 1)
    simp only [numberFrom, List.zipIdx_cons, List.map_cons, List.map_map] at hrest ⊢
    rw [hnext, hrest]

/-- The lines of a text, a line break and another text. -/
theorem numberedLines_append_cons (s t : List Char) :
    numberedLines (s ++ '\n' :: t) = numberedLines s ++ (numberedLines t).map
      fun (number, line) => (number + (s.count '\n' + 1), line) := by
  have hmoved := numberFrom_add 0 (s.count '\n' + 1) (splitChar '\n' t)
  have happend := numberFrom_append 0 (splitChar '\n' s) (splitChar '\n' t)
  rw [length_splitChar, hmoved, ← splitChar_append_cons] at happend
  exact happend

/-! ### Declarations -/

/-- A declaration under another number. -/
def ScriptLine.renumber (move : Nat → Nat) (l : ScriptLine) : ScriptLine :=
  { l with number := move l.number }

/-- Going on with a declaration leaves its number alone. -/
theorem extendLast_renumber (move : Nat → Nat) (line : List Char) (ls : List ScriptLine) :
    extendLast line (ls.map (·.renumber move)) = (extendLast line ls).map (·.renumber move) := by
  fun_induction extendLast line ls with
  | case1 => rfl
  | case2 l => rfl
  | case3 l ls hne ih =>
    cases ls with
    | nil => exact absurd rfl hne
    | cons next rest => exact congrArg (l.renumber move :: ·) ih

/-- What goes on goes on with the last declaration only. -/
theorem extendLast_append (line : List Char) (earlier : List ScriptLine) {ls : List ScriptLine}
    (h : ls ≠ []) : extendLast line (earlier ++ ls) = earlier ++ extendLast line ls := by
  induction earlier with
  | nil => rfl
  | cons l earlier ih =>
    rw [List.cons_append, List.cons_append, ← ih]
    cases hrest : earlier ++ ls with
    | nil => exact absurd (List.append_eq_nil_iff.mp hrest).2 h
    | cons next rest => rfl

/-- A line is blank, declares something, or goes on with the last declaration there is. -/
theorem readLine_eq_ok_iff {ls ls' : List ScriptLine} {number : Nat} {line : List Char} :
    readLine ls (number, line) = .ok ls' ↔
      (line = [] ∧ ls' = ls) ∨
      (∃ kind, LineKind.classify line = some kind ∧ ls' = ls ++ [.ofLine number kind line]) ∨
      (line ≠ [] ∧ LineKind.classify line = none ∧ ls ≠ [] ∧
        ls' = extendLast (trim line) ls) := by
  rw [readLine]
  cases line with
  | nil => simp [LineKind.classify, eq_comm]
  | cons c rest =>
    cases hkind : LineKind.classify (c :: rest) with
    | some kind => simp [eq_comm]
    | none => cases ls <;> simp [eq_comm]

/-- It cannot be read when it goes on and there is no declaration yet. -/
theorem readLine_eq_error_iff {ls : List ScriptLine} {number : Nat} {line : List Char}
    {e : ScriptError} :
    readLine ls (number, line) = .error e ↔
      line ≠ [] ∧ LineKind.classify line = none ∧ ls = [] ∧
        e = ⟨.strayText (String.ofList (trim line)), .tape, [number]⟩ := by
  rw [readLine]
  cases line with
  | nil => simp
  | cons c rest =>
    cases hkind : LineKind.classify (c :: rest) with
    | some kind => simp
    | none => cases ls <;> simp [eq_comm]

/-- A blank line declares nothing. -/
theorem readLine_blank (ls : List ScriptLine) (number : Nat) :
    readLine ls (number, []) = .ok ls := rfl

/-- A line with a mark declares something of its own. -/
theorem readLine_of_classify (ls : List ScriptLine) (number : Nat) {line : List Char}
    {kind : LineKind} (h : LineKind.classify line = some kind) :
    readLine ls (number, line) = .ok (ls ++ [.ofLine number kind line]) :=
  readLine_eq_ok_iff.mpr (.inr (.inl ⟨kind, h, rfl⟩))

/-- A line that can be read can be read behind other declarations, and under another number. -/
theorem readLine_behind {ls ls' : List ScriptLine} {number : Nat} {line : List Char}
    (h : readLine ls (number, line) = .ok ls') (earlier : List ScriptLine) (move : Nat → Nat) :
    readLine (earlier ++ ls.map (·.renumber move)) (move number, line) =
      .ok (earlier ++ ls'.map (·.renumber move)) := by
  rw [readLine_eq_ok_iff] at h ⊢
  rcases h with ⟨hblank, rfl⟩ | ⟨kind, hkind, rfl⟩ | ⟨hline, hkind, hls, rfl⟩
  · exact .inl ⟨hblank, rfl⟩
  · refine .inr (.inl ⟨kind, hkind, ?_⟩)
    rw [List.map_append, ← List.append_assoc]
    rfl
  · have hmoved : ls.map (·.renumber move) ≠ [] := fun hnil => hls (List.map_eq_nil_iff.mp hnil)
    have hne : earlier ++ ls.map (·.renumber move) ≠ [] :=
      List.append_ne_nil_of_right_ne_nil earlier hmoved
    refine .inr (.inr ⟨hline, hkind, hne, ?_⟩)
    rw [extendLast_append _ _ hmoved, extendLast_renumber]

/-- So can the lines of a whole text. -/
theorem readLines_behind {numbered : List (Nat × List Char)} {ls ls' : List ScriptLine}
    (h : numbered.foldlM readLine ls = .ok ls') (earlier : List ScriptLine) (move : Nat → Nat) :
    (numbered.map fun (number, line) => (move number, line)).foldlM readLine
        (earlier ++ ls.map (·.renumber move)) =
      .ok (earlier ++ ls'.map (·.renumber move)) := by
  induction numbered generalizing ls with
  | nil =>
    cases h
    rfl
  | cons first rest ih =>
    rw [List.foldlM_cons] at h
    obtain ⟨ls₁, hfirst, hrest⟩ := bind_eq_ok_iff.mp h
    rw [List.map_cons, List.foldlM_cons]
    exact bind_eq_ok_iff.mpr ⟨_, readLine_behind hfirst earlier move, ih hrest⟩

/-- Lines that declare something by themselves declare the same behind other declarations. -/
theorem readLines_append {numbered : List (Nat × List Char)} {ls : List ScriptLine}
    (h : numbered.foldlM readLine [] = .ok ls) (earlier : List ScriptLine) :
    numbered.foldlM readLine earlier = .ok (earlier ++ ls) := by
  have hbehind := readLines_behind h earlier id
  have hlines : numbered.map (fun (number, line) => (id number, line)) = numbered :=
    List.map_id _
  have hid : ls.map (·.renumber id) = ls := List.map_id _
  rwa [hlines, hid, List.map_nil, List.append_nil] at hbehind

/-- Two texts, the first ending in a line break, make the declarations of the one and, moved on, of
the other. -/
theorem splitScript_append {a b : String} {as bs : List ScriptLine}
    (hend : a.toList.getLast? = some '\n') (ha : splitScript a = .ok as)
    (hb : splitScript b = .ok bs) :
    splitScript (a ++ b) = .ok (as ++ bs.map (·.renumber (· + a.toList.count '\n'))) := by
  obtain ⟨s, hs⟩ := List.getLast?_eq_some_iff.mp hend
  have hcount : a.toList.count '\n' = s.count '\n' + 1 := by
    rw [hs, List.count_append, List.count_singleton_self]
  -- The piece after the last line break is blank.
  have hfirst : (numberedLines s).foldlM readLine [] = .ok as := by
    rw [splitScript, hs, numberedLines_append_cons, List.foldlM_append] at ha
    obtain ⟨ls, hls, hblank⟩ := bind_eq_ok_iff.mp ha
    cases hblank
    exact hls
  have hsecond := readLines_behind hb as (· + (s.count '\n' + 1))
  rw [List.map_nil, List.append_nil] at hsecond
  rw [splitScript, String.toList_append, hs, List.append_assoc, List.singleton_append,
    numberedLines_append_cons, List.foldlM_append, ← hs, hcount]
  exact bind_eq_ok_iff.mpr ⟨as, hfirst, hsecond⟩

/-! ### Numbers of declarations -/

/-- Going on with a declaration changes no number. -/
theorem numbers_extendLast (line : List Char) (ls : List ScriptLine) :
    (extendLast line ls).map ScriptLine.number = ls.map ScriptLine.number := by
  fun_induction extendLast line ls with
  | case1 => rfl
  | case2 l => rfl
  | case3 l ls _ ih => rw [List.map_cons, ih, List.map_cons]

/-- Lines are numbered from one. -/
theorem numbers_numberedLines (source : List Char) :
    (numberedLines source).map Prod.fst = List.range' 1 (splitChar '\n' source).length := by
  have hnumbers : (numberedLines source).map Prod.fst =
      ((splitChar '\n' source).zipIdx.map Prod.snd).map (· + 1) := by
    rw [numberedLines, List.map_map, List.map_map]
    rfl
  rw [hnumbers, List.zipIdx_map_snd]
  simp [List.range'_eq_map_range, Nat.add_comm]

/-- Declarations are numbered in the order in which they stand. -/
theorem pairwise_number_of_splitScript {source : String} {ls : List ScriptLine}
    (h : splitScript source = .ok ls) : (ls.map ScriptLine.number).Pairwise (· < ·) := by
  have hsublist : (ls.map ScriptLine.number).Sublist
      ((numberedLines source.toList).map Prod.fst) := by
    refine foldlM_ok_taken (P := fun taken ls => (ls.map ScriptLine.number).Sublist
      (taken.map Prod.fst)) h .slnil fun taken numbered rest ls ls' _ hls hread => ?_
    rw [List.map_append]
    rcases readLine_eq_ok_iff.mp hread with ⟨-, rfl⟩ | ⟨kind, -, rfl⟩ | ⟨-, -, -, rfl⟩
    · exact hls.trans (List.sublist_append_left _ _)
    · rw [List.map_append]
      exact hls.append (.refl _)
    · rw [numbers_extendLast]
      exact hls.trans (List.sublist_append_left _ _)
  rw [numbers_numberedLines] at hsublist
  exact List.Pairwise.sublist hsublist List.pairwise_lt_range'

/-! ### Texts that open anew -/

/-- What the lines of a text declare, one after the other. -/
def declaredKinds (lines : List (List Char)) : List LineKind :=
  lines.filterMap fun line => LineKind.classify (trimEnd line)

/-- The first line that is not blank, if any, declares something. -/
def OpensAnew (lines : List (List Char)) : Prop :=
  ∀ line ∈ lines.find? (fun line => !(trimEnd line).isEmpty),
    (LineKind.classify (trimEnd line)).isSome

/-- Going on with a declaration changes no kind. -/
theorem kinds_extendLast (line : List Char) (ls : List ScriptLine) :
    (extendLast line ls).map ScriptLine.kind = ls.map ScriptLine.kind := by
  fun_induction extendLast line ls with
  | case1 => rfl
  | case2 l => rfl
  | case3 l ls _ ih => rw [List.map_cons, ih, List.map_cons]

/-- The declarations read from lines are what the lines declare. -/
theorem kinds_readLines {before : Nat} {lines : List (List Char)} {ls ls' : List ScriptLine}
    (h : (numberFrom before lines).foldlM readLine ls = .ok ls') :
    ls'.map ScriptLine.kind = ls.map ScriptLine.kind ++ declaredKinds lines := by
  induction lines generalizing before ls with
  | nil =>
    cases h
    exact (List.append_nil _).symm
  | cons line lines ih =>
    rw [numberFrom, List.zipIdx_cons, List.map_cons, List.foldlM_cons] at h
    obtain ⟨ls₁, hfirst, hrest⟩ := bind_eq_ok_iff.mp h
    rw [ih hrest, declaredKinds, declaredKinds, List.filterMap_cons]
    rcases readLine_eq_ok_iff.mp hfirst with
      ⟨hblank, rfl⟩ | ⟨kind, hkind, rfl⟩ | ⟨-, hkind, -, rfl⟩
    · rw [hblank]
      rfl
    · rw [hkind, List.map_append, List.append_assoc]
      rfl
    · rw [hkind, kinds_extendLast]

/-- Where there is a declaration every line can be read. -/
theorem exists_readLines_of_ne_nil (numbered : List (Nat × List Char)) {ls : List ScriptLine}
    (h : ls ≠ []) : ∃ ls', numbered.foldlM readLine ls = .ok ls' := by
  induction numbered generalizing ls with
  | nil => exact ⟨ls, rfl⟩
  | cons first rest ih =>
    obtain ⟨number, line⟩ := first
    have hstep : ∃ ls₁, readLine ls (number, line) = .ok ls₁ ∧ ls₁ ≠ [] := by
      by_cases hblank : line = []
      · exact ⟨ls, hblank ▸ readLine_blank ls number, h⟩
      · cases hkind : LineKind.classify line with
        | some kind => exact ⟨_, readLine_of_classify ls number hkind, by simp⟩
        | none =>
          refine ⟨_, readLine_eq_ok_iff.mpr (.inr (.inr ⟨hblank, hkind, h, rfl⟩)), ?_⟩
          intro hnil
          have hlength := length_extendLast (trim line) ls
          rw [hnil, List.length_nil] at hlength
          exact h (List.length_eq_zero_iff.mp hlength.symm)
    obtain ⟨ls₁, hfirst, hne⟩ := hstep
    obtain ⟨ls', hrest⟩ := ih hne
    rw [List.foldlM_cons]
    exact ⟨ls', bind_eq_ok_iff.mpr ⟨ls₁, hfirst, hrest⟩⟩

/-- A text that opens anew can be read on its own. -/
theorem OpensAnew.exists_readLines {lines : List (List Char)} (h : OpensAnew lines)
    (before : Nat) : ∃ ls, (numberFrom before lines).foldlM readLine [] = .ok ls := by
  induction lines generalizing before with
  | nil => exact ⟨[], rfl⟩
  | cons line lines ih =>
    rw [numberFrom, List.zipIdx_cons, List.map_cons, List.foldlM_cons]
    by_cases hblank : trimEnd line = []
    · have hlater : OpensAnew lines := by
        simpa [OpensAnew, hblank] using h
      obtain ⟨ls, hls⟩ := ih hlater (before + 1)
      have hfirst : readLine [] (before + 1, trimEnd line) = .ok [] :=
        hblank ▸ readLine_blank [] (before + 1)
      exact ⟨ls, bind_eq_ok_iff.mpr ⟨[], hfirst, hls⟩⟩
    · have hdeclares : (LineKind.classify (trimEnd line)).isSome := by
        simpa [OpensAnew, hblank] using h
      obtain ⟨kind, hkind⟩ := Option.isSome_iff_exists.mp hdeclares
      have hfirst := readLine_of_classify [] (before + 1) hkind
      obtain ⟨ls, hls⟩ := exists_readLines_of_ne_nil (numberFrom (before + 1) lines)
        (List.cons_ne_nil (ScriptLine.ofLine (before + 1) kind (trimEnd line)) [])
      exact ⟨ls, bind_eq_ok_iff.mpr ⟨_, hfirst, hls⟩⟩

/-- A declaration put in before lines that open anew stands between what the lines before and after
it declare. -/
theorem splitScript_insert {source : String} {before after : List (List Char)} {line : List Char}
    {kind : LineKind} {ls : List ScriptLine}
    (hsource : splitChar '\n' source.toList = before ++ after) (hline : '\n' ∉ line)
    (hkind : LineKind.classify (trimEnd line) = some kind) (hnew : OpensAnew after)
    (hls : splitScript source = .ok ls) :
    ∃ bls als, ls = bls ++ als ∧ bls.map ScriptLine.kind = declaredKinds before ∧
      als.map ScriptLine.kind = declaredKinds after ∧
      splitScript (String.ofList (join ['\n'] (before ++ line :: after))) =
        .ok (bls ++ .ofLine (before.length + 1) kind (trimEnd line) ::
          als.map (·.renumber (· + 1))) := by
  have hfirst : (numberFrom 0 (before ++ after)).foldlM readLine [] = .ok ls := by
    rw [← hsource]
    exact hls
  rw [numberFrom_append, List.foldlM_append, Nat.zero_add] at hfirst
  obtain ⟨bls, hbls, hrest⟩ := bind_eq_ok_iff.mp hfirst
  obtain ⟨als, hals⟩ := hnew.exists_readLines before.length
  have hsame : ls = bls ++ als := Except.ok.inj (hrest.symm.trans (readLines_append hals bls))
  have hpieces : splitChar '\n' (join ['\n'] (before ++ line :: after)) =
      before ++ line :: after := by
    refine splitChar_join (by simp) fun piece hpiece => ?_
    have hold : piece ∈ before ++ after → '\n' ∉ piece := fun hp =>
      not_mem_of_mem_splitChar (hsource ▸ hp)
    grind
  refine ⟨bls, als, hsame, kinds_readLines hbls, kinds_readLines hals, ?_⟩
  have hinserted := readLine_of_classify bls (before.length + 1) hkind
  have hmoved := readLines_behind hals
    (bls ++ [.ofLine (before.length + 1) kind (trimEnd line)]) (· + 1)
  rw [← numberFrom_add, List.map_nil, List.append_nil, List.append_assoc] at hmoved
  rw [splitScript, String.toList_ofList]
  change (numberFrom 0 (splitChar '\n' _)).foldlM readLine [] = _
  rw [hpieces, numberFrom_append, List.foldlM_append, Nat.zero_add]
  exact bind_eq_ok_iff.mpr ⟨bls, hbls, bind_eq_ok_iff.mpr ⟨_, hinserted, hmoved⟩⟩

end StoryTape.Script
