import Mathlib.Tactic.SplitIfs
import StoryTape.Proofs.Rounds
import StoryTape.Proofs.TagExpansion

/-!
# Pools that templates run out in

A template is a wildcard, a step, a bound, or something that cannot be interpreted. What it yields
is of a later kind, as long as the identifiers of the pool hold no star of their own and none of
their levels is a negative zero, which a step down turns into a step marker. Against such a pool
every expansion ends: each replacement puts a tag of a later kind in the place of a template.
-/

namespace StoryTape

open Text

namespace Text

/-- A level that is no negative zero and not negative has no minus sign in front of its last
occurrence. -/
theorem getLast?_ne_minus_of_splitLast {s before after : List Char} {n : Int}
    (hread : readLevel (splitNumeral s).2 = some n) (hn : 0 ≤ n)
    (hzero : ¬ (n = 0 ∧ (splitNumeral s).2.head? = some '-'))
    (hcut : splitLast (writeLevel n) s = some (before, after)) : before.getLast? ≠ some '-' := by
  obtain ⟨name, numeral, hnumeral⟩ : ∃ name numeral, splitNumeral s = (name, numeral) :=
    ⟨_, _, rfl⟩
  have hs := append_splitNumeral s
  simp only [hnumeral] at hread hzero hs
  have hne : numeral ≠ [] := fun hnil => by
    rw [hnil] at hread
    cases hread
  subst hs
  cases numeralBehind_of_splitNumeral hnumeral hne with
  | signed _ hdigits =>
    have hvalue := eq_neg_digitsValue_of_readLevel hread
    exact absurd ⟨by omega, rfl⟩ hzero
  | unsigned _ hdigits hname =>
    obtain ⟨-, rfl⟩ := eq_digitsValue_of_readLevel hdigits hread
    obtain ⟨zeros, hzeros⟩ := writeCount_digitsValue_suffix hne hdigits
    rw [writeLevel_of_nonneg hn, Int.natAbs_natCast] at hcut
    have hs : name ++ numeral = (name ++ zeros) ++ writeCount (digitsValue numeral) := by
      rw [List.append_assoc, hzeros]
    rw [hs, splitLast_append_self (writeCount_ne_nil _)] at hcut
    obtain ⟨rfl, -⟩ := Prod.mk.inj (Option.some.inj hcut)
    rw [List.getLast?_append]
    cases hlast : zeros.getLast? with
    | none => exact fun hminus => (hname '-' (by simpa using hminus)).2 rfl
    | some c =>
      have hdigit : c.isDigit = true :=
        hdigits c (hzeros ▸ List.mem_append_left _ (List.mem_of_getLast? hlast))
      rw [Option.some_or, ne_eq, Option.some.injEq]
      rintro rfl
      exact absurd hdigit (by decide)

end Text

namespace Tag

/-- A tag that no template turns into a template of its own kind: its identifier holds no star and
its level is no negative zero. -/
def Plain (t : Tag) : Prop :=
  '*' ∉ t.value.toList ∧
    ¬ (t.meter.value = 0 ∧ (splitNumeral t.value.toList).2.head? = some '-')

instance (t : Tag) : Decidable t.Plain := inferInstanceAs (Decidable (_ ∧ _))

/-- The body of a tag with a level is its identifier, and the identifier opens with something else
than the numeral. -/
theorem body_of_hasMeter {t : Tag} (h : t.hasMeter = true) :
    t.body = t.value.toList ∧ (splitNumeral t.value.toList).1 ≠ [] ∧
      t.meter = .ofValue ((readLevel (splitNumeral t.value.toList).2).getD minLevel) := by
  have hread := t.splitMeter_body
  rw [splitMeter_of_unmarked ((splitMeter_eq_ok t.splitMeter_body).2 h)] at hread
  obtain ⟨hvalue, hmeter⟩ := Prod.mk.inj (Except.ok.inj hread)
  rw [hvalue] at hmeter
  rw [hasMeter, ← hmeter] at h
  have hstem : (splitNumeral t.value.toList).1 ≠ [] := fun hempty => by
    simp [Meter.hasValue, Meter.ofValue, hempty] at h
  exact ⟨hvalue, hstem, by rw [← hmeter, if_neg hstem]⟩

/-- A tag with a level has an identifier without markers, which ends with the level. -/
theorem of_hasMeter {t : Tag} (h : t.hasMeter = true) :
    Unmarked t.value.toList ∧ t.meter = .ofValue t.meter.value ∧
      readLevel (splitNumeral t.value.toList).2 = some t.meter.value := by
  obtain ⟨hbody, -, hmeter⟩ := body_of_hasMeter h
  refine ⟨hbody ▸ (splitMeter_eq_ok t.splitMeter_body).2 h, by rw [hmeter]; rfl, ?_⟩
  rw [hasMeter, hmeter] at h
  rw [hmeter]
  cases hlevel : readLevel (splitNumeral t.value.toList).2 with
  | none => simp [Meter.hasValue, Meter.ofValue, hlevel] at h
  | some level => rfl

/-- In a plain tag no minus sign stands in front of the level. -/
theorem Plain.getLast?_ne_minus {p : Tag} (hp : p.Plain) (hmeter : p.hasMeter = true)
    {before after : List Char}
    (hcut : splitLast (writeLevel p.meter.value) p.value.toList = some (before, after)) :
    before.getLast? ≠ some '-' := by
  obtain ⟨hunmarked, -, hread⟩ := of_hasMeter hmeter
  by_cases hneg : p.meter.value < 0
  · intro hlast
    obtain ⟨x, rfl⟩ := List.getLast?_eq_some_iff.mp hlast
    have hvalue := eq_append_of_splitLast hcut
    rw [writeLevel_of_neg hneg] at hvalue
    exact hunmarked ('-', '-') (by decide) ⟨x, _, by rw [hvalue]; simp; rfl⟩
  · exact getLast?_ne_minus_of_splitLast hread (by omega) hp.2 hcut

/-- Moving a level makes no marker where a new minus sign would stand behind no other. -/
theorem unmarked_replaceLast {t : Tag} (hmeter : t.hasMeter = true) {n : Int}
    (hminus : n < 0 → ∀ {before after : List Char},
      splitLast (writeLevel t.meter.value) t.value.toList = some (before, after) →
        before.getLast? ≠ some '-') :
    Unmarked (replaceLast (writeLevel t.meter.value) (writeLevel n) t.value.toList) := by
  obtain ⟨hunmarked, -, -⟩ := of_hasMeter hmeter
  rw [replaceLast]
  split
  · exact hunmarked
  · next before after hcut =>
    intro m hm hin
    have hdigits := isDigit_meterMarkers m hm
    rcases pair_infix_append hin with hin | hin | ⟨hlast, -⟩
    · rcases pair_infix_append hin with hin | hin | ⟨hlast, hhead⟩
      · exact hunmarked m hm (hin.trans (prefix_of_splitLast hcut).isInfix)
      · have hdigit := isDigit_of_pair_infix_writeLevel hin
        rw [hdigits.2] at hdigit
        cases hdigit
      · -- A marker that ends where the new level begins is that of a step down.
        by_cases hneg : n < 0
        · rw [writeLevel_of_neg hneg, List.head?_cons, Option.some.injEq] at hhead
          rw [eq_minus_of_mem_meterMarkers m hm hhead.symm] at hlast
          exact hminus hneg hcut hlast
        · rw [writeLevel_of_nonneg (by omega)] at hhead
          have hdigit := isDigit_of_mem_writeCount (List.mem_of_head? hhead)
          rw [hdigits.2] at hdigit
          cases hdigit
    · exact hunmarked m hm (hin.trans (suffix_of_splitLast hcut).isInfix)
    · obtain ⟨c, hc⟩ := Option.ne_none_iff_exists'.mp
        (mt List.getLast?_eq_none_iff.mp (writeLevel_ne_nil n))
      rw [List.getLast?_append, hc, Option.some_or, Option.some.injEq] at hlast
      have hdigit := isDigit_getLast?_writeLevel (hlast ▸ hc)
      rw [hdigits.1] at hdigit
      cases hdigit

/-- Moving the level of a plain tag makes no marker. -/
theorem Plain.unmarked_replaceLast {p : Tag} (hp : p.Plain) (hmeter : p.hasMeter = true) (n : Int) :
    Unmarked (replaceLast (writeLevel p.meter.value) (writeLevel n) p.value.toList) :=
  Tag.unmarked_replaceLast hmeter fun _ _ _ => hp.getLast?_ne_minus hmeter

/-- Moving a level brings digits and a minus sign into a text and nothing else. -/
theorem notMem_replaceLast {c : Char} (hdigit : c.isDigit = false) (hminus : c ≠ '-')
    {s : List Char} (h : c ∉ s) (m n : Int) :
    c ∉ replaceLast (writeLevel m) (writeLevel n) s := by
  rw [replaceLast]
  split
  · exact h
  · next before after hcut =>
    intro hmem
    rcases List.mem_append.mp hmem with hmem | hmem
    · rcases List.mem_append.mp hmem with hmem | hmem
      · exact h ((prefix_of_splitLast hcut).subset hmem)
      · rcases isDigit_or_eq_of_mem_writeLevel hmem with hdigit' | hminus'
        · rw [hdigit] at hdigit'
          cases hdigit'
        · exact hminus hminus'
    · exact h ((suffix_of_splitLast hcut).subset hmem)

/-- A sign adds no star. -/
theorem starless_sign_append {s : List Char} (h : '*' ∉ s) (mode : TagMode) :
    '*' ∉ mode.sign ++ s := by
  cases mode <;> simp [TagMode.sign, h]

/-- A sign adds no marker of a meter. -/
theorem unmarked_sign_append {s : List Char} (h : Unmarked s) (mode : TagMode) :
    Unmarked (mode.sign ++ s) := by
  have hsigns : ∀ m ∈ meterMarkers, m.1 ≠ '?' ∧ m.1 ≠ '!' := by decide
  intro m hm hin
  cases mode with
  | plain => exact h m hm hin
  | required =>
    rcases List.infix_cons_iff.mp hin with hin | hin
    · exact (hsigns m hm).1 (List.cons_prefix_cons.mp hin).1
    · exact h m hm hin
  | forbidden =>
    rcases List.infix_cons_iff.mp hin with hin | hin
    · exact (hsigns m hm).2 (List.cons_prefix_cons.mp hin).1
    · exact h m hm hin

/-- A tag without star in its identifier is no wildcard. -/
theorem ofValue?_eq_none {value : List Char} (h : '*' ∉ value) :
    Wildcard.ofValue? value = none := by
  simp only [Wildcard.ofValue?, splitFirst_eq_none h, Option.map_none, ite_self]

/-- How many replacements in a row a tag allows for at most: wildcards come first, then steps,
bounds and what cannot be interpreted. -/
def rank (t : Tag) : Nat :=
  if !t.isTemplate then 0
  else if (Wildcard.ofValue? t.value.toList).isSome then 4
  else if t.isIncrement || t.isDecrement then 3
  else if t.isGreater || t.isLower || t.isRange || t.meter = .unset then 2
  else 1

/-- A tag that is no wildcard ranks below one. -/
theorem rank_lt_four {t : Tag} (hwild : Wildcard.ofValue? t.value.toList = none) : t.rank < 4 := by
  simp only [rank, hwild, Option.isSome_none, Bool.false_eq_true, if_false]
  split_ifs <;> omega

/-- A tag that is no wildcard and no step ranks below both. -/
theorem rank_lt_three {t : Tag} (hwild : Wildcard.ofValue? t.value.toList = none)
    (hstep : (t.isIncrement || t.isDecrement) = false) : t.rank < 3 := by
  simp only [rank, hwild, hstep, Option.isSome_none, Bool.false_eq_true, if_false]
  split_ifs <;> omega

/-- A tag that is no wildcard, step or bound ranks lowest. -/
theorem rank_lt_two {t : Tag} (hwild : Wildcard.ofValue? t.value.toList = none)
    (hstep : (t.isIncrement || t.isDecrement) = false)
    (hbound : ¬ (t.isGreater || t.isLower || t.isRange || t.meter = .unset) = true) :
    t.rank < 2 := by
  simp only [rank, hwild, hstep, hbound, Option.isSome_none, Bool.false_eq_true, if_false]
  split_ifs <;> omega

/-- A level of its own makes a tag neither a step nor a bound. -/
theorem no_step_of_meter {t : Tag} {level : Int} (h : t.meter = .ofValue level) :
    (t.isIncrement || t.isDecrement) = false := by
  simp [isIncrement, isDecrement, h, Meter.ofValue]

/-- A star in an identifier makes a tag a template. -/
theorem isTemplate_of_star {t : Tag} (h : '*' ∈ t.value.toList) : t.isTemplate = true := by
  have hraw : '*' ∈ t.raw.toList :=
    t.sign_append_value_opens.subset (List.mem_append_right _ h)
  simp [isTemplate, isJoker, hraw]

/-- A tag with a level of its own and neither a star nor a range in its text is no template. -/
theorem isTemplate_eq_false {t : Tag} {level : Int} (hstar : '*' ∉ t.raw.toList)
    (hdots : ¬ ['.', '.'] <:+: t.raw.toList) (hmeter : t.meter = .ofValue level) :
    t.isTemplate = false := by
  have hjoker : t.isJoker = false := by simpa [isJoker] using hstar
  have hrange : t.hasDots = false := Bool.eq_false_iff.mpr fun h => hdots (occurs_iff.mp h)
  have hgreater : t.isGreater = false := by
    rw [isGreater, hmeter]
    exact Bool.and_false _
  have hlower : t.isLower = false := by
    rw [isLower, hmeter]
    exact Bool.and_false _
  simp [isTemplate, hjoker, no_step_of_meter hmeter, hgreater, hlower, hrange]

/-- A tag with a level of its own is no bound. -/
theorem no_bound_of_hasMeter {t : Tag} (h : t.hasMeter = true) :
    ¬ (t.isGreater || t.isLower || t.isRange || t.meter = .unset) = true := by
  have hmeter := (of_hasMeter h).2.1
  have hlevel : minLevel < t.meter.value := by
    rw [hasMeter, Meter.hasValue, Bool.and_eq_true] at h
    exact of_decide_eq_true h.1
  have hset : t.meter ≠ .unset := by
    intro hunset
    rw [hunset] at hlevel
    exact absurd hlevel (by decide)
  have hstep : t.meter.step = 0 := by rw [hmeter]; rfl
  have hlow : t.meter.low = minLevel := by rw [hmeter]; rfl
  simp [isGreater, isLower, isRange, hstep, hlow, hset, maxLevel, minLevel]

/-- A pool tag moved to the place of a template has no star. -/
theorem starless_of_compose {t t' : Tag} {mode : TagMode} {value : List Char} (hvalue : '*' ∉ value)
    (h : parse (compose mode value t.location) = .ok t') : '*' ∉ t'.value.toList := fun hstar =>
  starless_sign_append hvalue mode
    ((body_infix_of_parse h).subset (t'.value_opens_body.subset hstar))

/-- What a template yields for a plain pool is of a later kind. -/
theorem Yields.rank_lt {t t' : Tag} {pool : List Tag} (hpool : ∀ p ∈ pool, p.Plain)
    (ht : t.isTemplate = true) (h : t.Yields pool t') : t'.rank < t.rank := by
  cases h with
  | moved hwild hp h =>
    have hrank : t.rank = 4 := by simp [rank, ht, hwild]
    rw [hrank]
    exact rank_lt_four (ofValue?_eq_none (starless_of_compose (hpool _ hp).1 h))
  | @filled _ p _ fill hwild hp hfill h =>
    have hrank : t.rank = 4 := by simp [rank, ht, hwild]
    rw [hrank]
    refine rank_lt_four (ofValue?_eq_none fun hstar => ?_)
    -- A star would come from what fills the stars, a part of an identifier of the pool.
    have hraw := t'.sign_append_value_opens.subset (List.mem_append_right _ hstar)
    rw [raw_of_parse h, String.toList_ofList, String.toList_ofList] at hraw
    rcases mem_replaceChar ((trim_within _).subset hraw) with hmem | ⟨-, hne⟩
    · exact (hpool p hp).1 (hfill.subset hmem)
    · exact hne rfl
  | @stepped p _ hwild hstep hp hmeter h =>
    have hrank : t.rank = 3 := by simp [rank, ht, hwild, hstep]
    rw [hrank]
    simp only [incremented] at h
    -- Moving a level leaves no marker, so what is read is a level and no step.
    have hbody : Unmarked t'.body := (unmarked_sign_append
      ((hpool p hp).unmarked_replaceLast hmeter _) t.mode).mono (body_infix_of_parse h)
    have hread := t'.splitMeter_body
    rw [splitMeter_of_unmarked hbody] at hread
    have hlevel := (Prod.mk.inj (Except.ok.inj hread)).2
    have hnoStep : (t'.isIncrement || t'.isDecrement) = false := no_step_of_meter hlevel.symm
    have hstarless : '*' ∉ t'.value.toList :=
      starless_of_compose (notMem_replaceLast rfl (by decide) (hpool p hp).1 _ _) h
    exact rank_lt_three (ofValue?_eq_none hstarless) hnoStep
  | @admitted p hwild hstep hbound hp hmeter =>
    have hrank : t.rank = 2 := by
      have hbound : (t.isGreater || t.isLower || t.isRange || t.meter = .unset) = true := by
        simpa [or_assoc] using hbound
      simp [rank, ht, hwild, hstep, hbound]
    rw [hrank]
    have hnoStep : (t'.isIncrement || t'.isDecrement) = false :=
      no_step_of_meter (of_hasMeter hmeter).2.1
    exact rank_lt_two (ofValue?_eq_none (hpool _ hp).1) hnoStep (no_bound_of_hasMeter hmeter)

end Tag

namespace TagSet

/-- How many replacements in a row tags allow for at most. -/
def rankSum : List Tag → Nat
  | [] => 0
  | t :: tags => t.rank + rankSum tags

/-- How many replacements in a row a set allows for at most. -/
def rank (s : TagSet) : Nat := rankSum s.tags

/-- Putting a tag in adds its rank at most. -/
theorem rankSum_insert_le (t : Tag) (tags : List Tag) :
    rankSum (Ascending.insert Tag.raw t tags) ≤ t.rank + rankSum tags := by
  induction tags with
  | nil => simp [Ascending.insert, rankSum]
  | cons a tags ih =>
    simp only [Ascending.insert]
    split_ifs
    · simp [rankSum]
    · simp only [rankSum]
      omega
    · simp only [rankSum]
      omega

/-- Leaving tags out lowers the rank, if anything. -/
theorem rankSum_filter_le (p : Tag → Bool) (tags : List Tag) :
    rankSum (tags.filter p) ≤ rankSum tags := by
  induction tags with
  | nil => simp
  | cons a tags ih =>
    rw [List.filter_cons]
    split <;> simp only [rankSum] <;> omega

/-- Leaving a member out takes its rank away. -/
theorem rankSum_filter_add_le {t : Tag} {tags : List Tag} (h : t ∈ tags) :
    rankSum (tags.filter (· != t)) + t.rank ≤ rankSum tags := by
  induction tags with
  | nil => cases h
  | cons a tags ih =>
    by_cases hat : a = t
    · have htags := rankSum_filter_le (· != t) tags
      simp only [hat, List.filter_cons, bne_self_eq_false, Bool.false_eq_true, if_false, rankSum]
      omega
    · have hne : (a != t) = true := bne_iff_ne.mpr hat
      have htags := ih ((List.mem_cons.mp h).resolve_left (Ne.symm hat))
      simp only [List.filter_cons, hne, if_true, rankSum]
      omega

/-- A tag of a later kind in the place of a member leaves fewer replacements in a row. -/
theorem rank_replace_lt {s : TagSet} {old new : Tag} (hold : old ∈ s.tags)
    (hrank : new.rank < old.rank) : (s.replace old new).rank < s.rank := by
  have hinsert := rankSum_insert_le new (s.tags.filter (· != old))
  have hfilter := rankSum_filter_add_le hold
  simp only [rank, replace, insert, filter]
  omega

/-- Whether no template of a set runs on in the pool. -/
def Plain (pool : TagSet) : Prop := ∀ p ∈ pool.tags, p.Plain

instance (pool : TagSet) : Decidable pool.Plain := List.decidableBAll Tag.Plain pool.tags

/-- Against a plain pool every replacement lowers the rank. -/
theorem rank_lt_of_leads {pool s s' : TagSet} (hpool : pool.Plain)
    (h : Worklist.Leads pool s s') : s'.rank < s.rank := by
  obtain ⟨before, after, hsets, -⟩ := h
  rw [replacements] at hsets
  split at hsets
  · cases hsets
  · next template hfirst =>
    obtain ⟨found, hfound, hsets⟩ := bind_eq_ok_iff.mp hsets
    split at hsets
    · cases hsets
    · next hself =>
      have hsets := Option.some.inj (pure_eq_ok_iff.mp hsets)
      have hmem : s' ∈ found.map (s.replace template) := by rw [hsets]; simp
      obtain ⟨t', ht', rfl⟩ := List.mem_map.mp hmem
      obtain ⟨htemplate, hyields⟩ := (Tag.expand_cases hfound).resolve_left hself
      exact rank_replace_lt (List.mem_of_find?_eq_some hfirst)
        ((hyields t' ht').rank_lt hpool htemplate)

/-- Against a plain pool the expansion of every set ends. -/
theorem Plain.expansionEnds {pool : TagSet} (hpool : pool.Plain) (s : TagSet) :
    s.ExpansionEnds pool := by
  rw [expansionEnds_iff_halts, Worklist.halts_iff_acc]
  exact Subrelation.accessible (rank_lt_of_leads hpool) ((measure rank).wf.apply s)

end TagSet

end StoryTape
