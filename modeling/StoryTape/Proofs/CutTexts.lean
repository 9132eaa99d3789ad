import StoryTape.Proofs.Texts

/-!
# Cutting a text at a marker

A text is cut at the first occurrence of a marker, and behind it again. No piece holds the marker,
and nothing but markers is lost. Trimming a piece loses blanks only.
-/

namespace StoryTape.Text

variable {m s before after : List Char}

/-! ### The first occurrence -/

/-- A marker does not occur before its last character. -/
theorem not_infix_dropLast (hm : m ≠ []) : ¬ m <:+: m.dropLast := by
  intro h
  have hlength := h.length_le
  have hpos := List.length_pos_iff.mpr hm
  rw [List.length_dropLast] at hlength
  omega

/-- No occurrence ends before the first one does. -/
theorem not_infix_of_splitFirst (hm : m ≠ []) (h : splitFirst m s = some (before, after)) :
    ¬ m <:+: before ++ m.dropLast := by
  induction s generalizing before with
  | nil => simp [splitFirst, hm] at h
  | cons c s ih =>
    rw [splitFirst] at h
    split at h
    · cases h
      exact not_infix_dropLast hm
    · next hprefix =>
      obtain ⟨⟨front, _⟩, hrest, hcons⟩ := Option.map_eq_some_iff.mp h
      cases hcons
      rw [List.cons_append, List.infix_cons_iff, not_or]
      refine ⟨fun hopens => hprefix (List.isPrefixOf_iff_prefix.mpr (hopens.trans ?_)), ih hrest⟩
      rw [eq_append_of_splitFirst hrest, List.append_assoc, List.cons_prefix_cons,
        List.prefix_append_right_inj]
      exact ⟨rfl, (List.dropLast_prefix m).trans (List.prefix_append m after)⟩

/-- What stands behind any occurrence stands behind the first. -/
theorem suffix_of_splitFirst (hm : m ≠ []) {l r : List Char}
    (h : splitFirst m s = some (before, after)) (hs : s = l ++ m ++ r) : r <:+ after := by
  have hcut := eq_append_of_splitFirst h
  have hlength : before.length ≤ l.length := by
    -- an occurrence further to the front would end before the first one does
    by_contra hless
    refine not_infix_of_splitFirst hm h ?_
    have hopens : l ++ m <+: s := ⟨r, hs.symm⟩
    have hfirst : before ++ m.dropLast <+: s := by
      rw [hcut, List.append_assoc, List.prefix_append_right_inj]
      exact (List.dropLast_prefix m).trans (List.prefix_append m after)
    have hpos := List.length_pos_iff.mpr hm
    refine (List.suffix_append l m).isInfix.trans (List.IsPrefix.isInfix ?_)
    refine List.prefix_of_prefix_length_le hopens hfirst ?_
    simp only [List.length_append, List.length_dropLast]
    omega
  refine List.suffix_of_suffix_length_le ⟨l ++ m, hs.symm⟩ ⟨before ++ m, hcut.symm⟩ ?_
  have hsame := congrArg List.length (hs.symm.trans hcut)
  simp only [List.length_append] at hsame
  omega

/-- A text that is not split does not hold the marker. -/
theorem not_infix_of_splitFirst_eq_none (h : splitFirst m s = none) : ¬ m <:+: s := by
  rw [← occurs_iff, occurs, h]
  exact Bool.false_ne_true

/-! ### Every occurrence -/

/-- What holds of texts without the marker, and of a text when it holds of what stands behind the
first occurrence, holds of every text. -/
@[elab_as_elim]
theorem splitFirst_induction {motive : List Char → Prop} (hm : m ≠ [])
    (last : ∀ s, splitFirst m s = none → motive s)
    (cut : ∀ s before after, splitFirst m s = some (before, after) → motive after → motive s)
    (s : List Char) : motive s := by
  induction hlength : s.length using Nat.strongRecOn generalizing s with
  | ind n ih =>
    cases hs : splitFirst m s with
    | none => exact last s hs
    | some parts =>
      refine cut s parts.1 parts.2 hs (ih _ ?_ parts.2 rfl)
      have hcut := congrArg List.length (eq_append_of_splitFirst hs)
      have hpos := List.length_pos_iff.mpr hm
      simp only [List.length_append] at hcut
      omega

/-- Characters to be skipped are dropped before the text is split. -/
theorem splitEveryFrom_eq_drop (m : List Char) (skip : Nat) (s : List Char) :
    splitEveryFrom m skip s = splitEvery m (s.drop skip) := by
  induction skip generalizing s with
  | zero => rfl
  | succ skip ih =>
    cases s with
    | nil => rfl
    | cons c s => exact ih s

/-- Where the marker does not start, a character goes to the first piece. -/
theorem splitEvery_cons {c : Char} (h : ¬ m <+: c :: s) :
    splitEvery m (c :: s) = consPiece c (splitEvery m s) := by
  rw [splitEvery, splitEveryFrom, if_neg (mt List.isPrefixOf_iff_prefix.mp h), splitEvery]

/-- A character put in front of the first piece is in front of all of them. -/
@[simp] theorem flatten_consPiece (c : Char) (pieces : List (List Char)) :
    (consPiece c pieces).flatten = c :: pieces.flatten := by
  cases pieces <;> rfl

/-- A text that does not hold the marker is one piece. -/
theorem splitEvery_of_splitFirst_eq_none (h : splitFirst m s = none) : splitEvery m s = [s] := by
  induction s with
  | nil => rfl
  | cons c s ih =>
    rw [splitFirst] at h
    split at h
    · cases h
    · next hprefix =>
      rw [splitEvery_cons (mt List.isPrefixOf_iff_prefix.mpr hprefix),
        ih (Option.map_eq_none_iff.mp h), consPiece]

/-- A text is cut at the first occurrence, and the rest is cut again. -/
theorem splitEvery_of_splitFirst (hm : m ≠ []) (h : splitFirst m s = some (before, after)) :
    splitEvery m s = before :: splitEvery m after := by
  induction s generalizing before with
  | nil => simp [splitFirst, hm] at h
  | cons c s ih =>
    rw [splitFirst] at h
    split at h
    · next hprefix =>
      cases h
      obtain ⟨d, m, rfl⟩ := List.exists_cons_of_ne_nil hm
      rw [splitEvery, splitEveryFrom, if_pos hprefix, splitEveryFrom_eq_drop, List.length_cons,
        Nat.add_sub_cancel, List.drop_succ_cons]
    · next hprefix =>
      obtain ⟨⟨front, _⟩, hrest, hcons⟩ := Option.map_eq_some_iff.mp h
      cases hcons
      rw [splitEvery_cons (mt List.isPrefixOf_iff_prefix.mpr hprefix), ih hrest, consPiece]

/-- A piece is a part of the text that does not hold the marker. -/
theorem within_of_mem_splitEvery (hm : m ≠ []) {piece : List Char} (h : piece ∈ splitEvery m s) :
    piece <:+: s ∧ ¬ m <:+: piece := by
  induction s using splitFirst_induction hm with
  | last s hs =>
    rw [splitEvery_of_splitFirst_eq_none hs, List.mem_singleton] at h
    subst h
    exact ⟨List.infix_rfl, not_infix_of_splitFirst_eq_none hs⟩
  | cut s before after hs ih =>
    have hcut := eq_append_of_splitFirst hs
    rw [splitEvery_of_splitFirst hm hs, List.mem_cons] at h
    rcases h with rfl | h
    · refine ⟨⟨[], m ++ after, by rw [hcut, List.nil_append, List.append_assoc]⟩, fun hin => ?_⟩
      exact not_infix_of_splitFirst hm hs (hin.trans (List.prefix_append _ _).isInfix)
    · obtain ⟨hwithin, hfree⟩ := ih h
      exact ⟨hwithin.trans (hcut ▸ (List.suffix_append _ _).isInfix), hfree⟩

/-! ### Blanks -/

/-- The characters of a text that are not blank. -/
def solid (s : List Char) : List Char := s.filter (!isBlank ·)

/-- What is solid in texts put together is what is solid in each. -/
@[simp] theorem solid_append (s t : List Char) : solid (s ++ t) = solid s ++ solid t :=
  List.filter_append s t

/-- Nothing is solid in a blank text. -/
theorem solid_eq_nil_of_allBlank (h : allBlank s = true) : solid s = [] := by
  simpa [solid, allBlank] using h

/-- A marker without blanks does not reach into the blanks behind a text. -/
theorem prefix_of_prefix_append_blanks {r : List Char} (hm : ∀ c ∈ m, isBlank c = false)
    (hr : allBlank r = true) (h : m <+: s ++ r) : m <+: s := by
  induction s generalizing m with
  | nil =>
    cases m with
    | nil => exact List.prefix_refl _
    | cons c m =>
      have hblank := List.all_eq_true.mp hr c (h.subset List.mem_cons_self)
      rw [hm c List.mem_cons_self] at hblank
      cases hblank
  | cons d s ih =>
    cases m with
    | nil => exact List.nil_prefix
    | cons c m =>
      obtain ⟨rfl, hrest⟩ := List.cons_prefix_cons.mp h
      exact List.cons_prefix_cons.mpr
        ⟨rfl, ih (fun c hc => hm c (List.mem_cons_of_mem _ hc)) hrest⟩

/-- Trimming takes blanks off both ends. -/
theorem exists_blanks_around_trim (s : List Char) :
    ∃ l r, allBlank l = true ∧ allBlank r = true ∧ s = l ++ trim s ++ r := by
  refine ⟨s.takeWhile isBlank, ((trimStart s).reverse.takeWhile isBlank).reverse, ?_, ?_, ?_⟩
  · exact List.all_takeWhile
  · rw [allBlank, List.all_reverse]
    exact List.all_takeWhile
  · have hend : trim s ++ ((trimStart s).reverse.takeWhile isBlank).reverse = trimStart s := by
      rw [trim, trimEnd, dropEndWhile, ← List.reverse_append, List.takeWhile_append_dropWhile,
        List.reverse_reverse]
    rw [List.append_assoc, hend, trimStart, List.takeWhile_append_dropWhile]

/-- Trimming loses only blanks. -/
@[simp] theorem solid_trim (s : List Char) : solid (trim s) = solid s := by
  obtain ⟨l, r, hl, hr, hs⟩ := exists_blanks_around_trim s
  conv_rhs => rw [hs]
  simp [solid_eq_nil_of_allBlank hl, solid_eq_nil_of_allBlank hr]

/-- A text is trimmed to nothing when it holds nothing but blanks. -/
theorem trim_eq_nil_iff : trim s = [] ↔ solid s = [] := by
  rw [← solid_trim s]
  constructor
  · intro h
    rw [h]
    rfl
  · intro h
    by_contra hne
    obtain ⟨c, r, hcons⟩ := List.exists_cons_of_ne_nil hne
    have hc := isBlank_head?_of_trim (trim_trim s) (c := c) (by rw [hcons, List.head?_cons])
    simp [solid, hcons, hc] at h

end StoryTape.Text
