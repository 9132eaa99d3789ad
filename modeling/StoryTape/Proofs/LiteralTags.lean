import Mathlib.Data.List.Infix
import StoryTape.Proofs.MovedLevels
import StoryTape.Proofs.SetChoices
import StoryTape.Proofs.Wildcards

/-!
# Tags that are counted

A literal tag has its identifier for its text: no sign, no location, no wildcard and no marker. A
wildcard with one segment in front finds literal tags as they are, and a step up finds those with a
level and moves it. Wherever the old level is found in the identifier, a level that does not sink
takes its place without a marker coming into being, so what is found is concrete.
-/

namespace StoryTape

open Text

namespace Text

/-- A trimmed text does not end with a blank. -/
theorem isBlank_getLast?_of_trim {s : List Char} (h : trim s = s) {c : Char}
    (hc : s.getLast? = some c) : isBlank c = false := by
  rw [← h, trim, trimEnd, dropEndWhile, List.getLast?_reverse] at hc
  have hhead := List.head?_dropWhile_not isBlank (trimStart s).reverse
  rw [hc] at hhead
  simpa using hhead

/-- A number above the scale is not read as a level. -/
theorem readLevel_writeLevel_of_large {n : Int} (h : maxLevel < n) :
    readLevel (writeLevel n) = none := by
  have hpos : 0 ≤ n := Int.le_of_lt (Int.lt_trans (by decide) h)
  rw [writeLevel_of_nonneg hpos, Option.eq_none_iff_forall_ne_some]
  intro m hm
  have hvalue := (eq_digitsValue_of_readLevel (fun c => isDigit_of_mem_writeCount) hm).2
  rw [digitsValue_writeCount] at hvalue
  have hscale : m ≤ maxLevel := by
    have hfilter := (Option.filter_eq_some_iff.mp hm).2
    simpa using (Bool.and_eq_true_iff.mp hfilter).2
  omega

/-- What is in front does not matter for a last occurrence. -/
theorem splitLast_append_left {m s x y : List Char} (h : splitLast m s = some (x, y))
    (before : List Char) : splitLast m (before ++ s) = some (before ++ x, y) := by
  induction before with
  | nil => exact h
  | cons c before ih => rw [List.cons_append, splitLast, ih, List.cons_append]

end Text

namespace Tag

/-- A tag whose text is its identifier, without wildcard, marker and bracket. -/
structure Literal (p : Tag) : Prop where
  raw_eq : p.raw = p.value
  starless : '*' ∉ p.raw.toList
  no_dots : ¬ ['.', '.'] <:+: p.raw.toList
  no_pluses : ¬ ['+', '+'] <:+: p.raw.toList
  no_minuses : ¬ ['-', '-'] <:+: p.raw.toList
  unbracketed : '<' ∉ p.raw.toList ∧ '>' ∉ p.raw.toList

instance (p : Tag) : Decidable p.Literal :=
  decidable_of_iff (p.raw = p.value ∧ '*' ∉ p.raw.toList ∧ ¬ ['.', '.'] <:+: p.raw.toList ∧
      ¬ ['+', '+'] <:+: p.raw.toList ∧ ¬ ['-', '-'] <:+: p.raw.toList ∧
      '<' ∉ p.raw.toList ∧ '>' ∉ p.raw.toList)
    ⟨fun ⟨hraw, hstar, hdots, hpluses, hminuses, hbrackets⟩ =>
      ⟨hraw, hstar, hdots, hpluses, hminuses, hbrackets⟩,
    fun h => ⟨h.raw_eq, h.starless, h.no_dots, h.no_pluses, h.no_minuses, h.unbracketed⟩⟩

namespace Literal

variable {p : Tag}

/-- A literal tag holds no marker of a meter. -/
theorem unmarked (h : p.Literal) : Unmarked p.value.toList := by
  rw [← h.raw_eq]
  have hopens : ∀ {c d : Char}, c ∉ p.raw.toList → ¬ [c, d] <:+: p.raw.toList := fun hc hin =>
    hc (hin.subset List.mem_cons_self)
  intro m hm
  simp only [meterMarkers, List.mem_cons, List.not_mem_nil, or_false] at hm
  rcases hm with rfl | rfl | rfl | rfl | rfl
  · exact h.no_dots
  · exact h.no_pluses
  · exact h.no_minuses
  · exact hopens h.unbracketed.1
  · exact hopens h.unbracketed.2

/-- A literal tag has no sign. -/
theorem mode_eq (h : p.Literal) : p.mode = .plain := by
  obtain ⟨rest, hrest⟩ := p.sign_append_value_opens
  have hlength := congrArg List.length hrest
  rw [h.raw_eq, List.length_append, List.length_append] at hlength
  cases hmode : p.mode with
  | plain => rfl
  | required =>
    rw [hmode, TagMode.sign, List.length_singleton] at hlength
    omega
  | forbidden =>
    rw [hmode, TagMode.sign, List.length_singleton] at hlength
    omega

/-- A literal tag is bound to no location. -/
theorem splitLocation_eq (h : p.Literal) :
    splitLocation p.value.toList = (p.value.toList, none) := by
  rw [← h.raw_eq, splitLocation, splitLast_eq_none h.unbracketed.1]

/-- Its identifier can stand alone. -/
theorem closes (h : p.Literal) : Closes p.value.toList none := by
  refine ⟨h.splitLocation_eq, fun c hc => ?_⟩
  rw [← h.raw_eq] at hc
  exact isBlank_getLast?_of_trim p.trim_raw hc

/-- Reading its identifier gives the tag back. -/
theorem parse_value (h : p.Literal) : parse (String.ofList p.value.toList) = .ok p := by
  rw [String.ofList_toList, ← h.raw_eq, parse_raw]

/-- A wildcard moves it nowhere. -/
theorem relocated_eq (h : p.Literal) : p.relocated none .plain = .ok p := h.parse_value

/-- A literal tag is no template. -/
theorem not_isTemplate (h : p.Literal) : p.isTemplate = false := by
  have hfollows : Follows p.value.toList .plain := h.mode_eq ▸ p.follows_value
  obtain ⟨r, hr, -, -, -, -, hmeter⟩ := parse_compose p.value_ne_nil h.unmarked hfollows h.closes
  obtain rfl : p = r := Except.ok.inj (h.parse_value.symm.trans hr)
  exact isTemplate_eq_false h.starless h.no_dots hmeter

/-- Literal tags are told apart by their identifiers. -/
theorem eq_of_value (h : p.Literal) {q : Tag} (hq : q.Literal) (hvalue : p.value = q.value) :
    p = q :=
  ext_raw (h.raw_eq.trans (hvalue.trans hq.raw_eq.symm))

/-- With a sign in front it is read as asking for itself. -/
theorem exists_required (h : p.Literal) :
    ∃ t, parse ("?" ++ p.value) = .ok t ∧ t.mode = .required ∧ t.value = p.value ∧
      t.location = none ∧ t.isTemplate = false := by
  have hfollows : Follows p.value.toList .required := fun h => absurd h (by decide)
  obtain ⟨t, ht, hraw, hmode, hvalue, hlocation, hmeter⟩ :=
    parse_compose p.value_ne_nil h.unmarked hfollows h.closes
  have htext : compose .required p.value.toList none = "?" ++ p.value := by
    rw [← String.toList_inj, compose, String.toList_ofList, String.toList_append]
    rfl
  have hstar := starless_sign_append (h.raw_eq ▸ h.starless) .required
  have hdots := unmarked_sign_append h.unmarked .required ('.', '.') (by decide)
  rw [← String.toList_ofList (l := TagMode.required.sign ++ p.value.toList)] at hstar hdots
  refine ⟨t, htext ▸ ht, hmode, String.toList_inj.mp hvalue, hlocation, ?_⟩
  exact isTemplate_eq_false (hraw ▸ hstar) (hraw ▸ hdots) hmeter

/-- A step up from its level is read as a concrete tag. -/
theorem exists_incremented (h : p.Literal) (hmeter : p.hasMeter = true) {step : Int}
    (hstep : 0 ≤ step) : ∃ r, p.incremented step none .plain = .ok r ∧ r.isTemplate = false := by
  have hbounds : minLevel < p.meter.value ∧ p.meter.value < maxLevel := by
    simpa [hasMeter, Meter.hasValue] using hmeter
  simp only [incremented]
  generalize hnew : clampLevel (p.meter.value + step) = new
  have hrises : p.meter.value ≤ new := by
    rw [clampLevel] at hnew
    omega
  -- A level that is still below zero stood behind a minus sign already.
  have hunmarked := unmarked_replaceLast hmeter (n := new) fun hneg _ _ hcut => by
    have hplain : p.Plain := ⟨h.raw_eq ▸ h.starless, fun hzero => by omega⟩
    exact hplain.getLast?_ne_minus hmeter hcut
  have hstar : '*' ∉ replaceLast (writeLevel p.meter.value) (writeLevel new) p.value.toList :=
    notMem_replaceLast rfl (by decide) (h.raw_eq ▸ h.starless) _ _
  have hopen := (h.mode_eq ▸ p.follows_value).replaceLast p.meter.value new
  have hunnamed : Named none := fun _ h => absurd h (Option.some_ne_none _).symm
  have hclose := closes_replaceLast hunnamed (fun _ => h.splitLocation_eq)
    (fun c => (showsLevel_value hmeter).isDigit_getLast?) p.meter.value new
  obtain ⟨r, hr, hraw, -, -, -, hlevel⟩ := parse_compose
    (replaceLast_ne_nil p.meter.value new p.value_ne_nil) hunmarked hopen hclose
  refine ⟨r, hr, isTemplate_eq_false ?_ ?_ hlevel⟩
  · rw [hraw, compose, String.toList_ofList]
    exact hstar
  · rw [hraw, compose, String.toList_ofList]
    exact hunmarked ('.', '.') (by decide)

end Literal

end Tag

/-! ### Stems of letters -/

/-- A stem of letters with the dot in front of a level. -/
def dotted (stem : String) : List Char := stem.toList ++ ['.']

/-- The text of a level behind a stem. -/
def levelText (stem : String) (n : Int) : String := String.ofList (dotted stem ++ writeLevel n)

/-- The text of a step up behind a stem. -/
def stepText (stem : String) (k : Int) : String := stem ++ ".++" ++ String.ofList (writeLevel k)

namespace Text

variable {stem : String}

/-- A text of letters only. -/
def OfLetters (stem : String) : Prop := ∀ c ∈ stem.toList, isLetter c = true

instance (stem : String) : Decidable (OfLetters stem) :=
  List.decidableBAll (isLetter · = true) stem.toList

/-- Letters may stand in the name of a text. -/
theorem OfLetters.isTextName (h : OfLetters stem) : Script.IsTextName stem := fun c hc => by
  simp [Script.isNameChar, Script.isWordChar, h c hc]

/-- Letters say nothing but themselves. -/
theorem OfLetters.bare (h : OfLetters stem) : Bare stem.toList where
  unmarked := by
    have hminus : '-' ∉ stem.toList := fun hmem =>
      absurd (h '-' hmem) (by decide +kernel)
    intro m hm
    by_cases hm' : m = ('-', '-')
    · rw [hm']
      exact fun hin => hminus (hin.subset List.mem_cons_self)
    · exact h.isTextName.marker_not_infix hm hm'
  unbracketed c hc := ⟨ne_of_mem_of_not_mem hc (h.isTextName.mark_not_mem (by simp)),
    ne_of_mem_of_not_mem hc (h.isTextName.mark_not_mem (by simp))⟩
  unspaced c hc := Script.isBlank_of_isNameChar (h.isTextName c hc)

/-- Letters hold no dot. -/
theorem OfLetters.dotless (h : OfLetters stem) : '.' ∉ stem.toList :=
  h.isTextName.mark_not_mem (by simp)

/-- A stem with a dot says nothing but itself. -/
theorem OfLetters.bare_dotted (h : OfLetters stem) : Bare (dotted stem) :=
  h.bare.append_dot (by decide) (fun hlast => h.dotless (List.mem_of_getLast? hlast)) rfl

/-- A stem with a dot ends with it. -/
theorem getLast?_dotted (stem : String) : (dotted stem).getLast? = some '.' :=
  List.getLast?_concat

/-- A stem with a dot holds no star. -/
theorem OfLetters.starless_dotted (h : OfLetters stem) : '*' ∉ dotted stem := by
  have hstar : '*' ∉ stem.toList := h.isTextName.mark_not_mem (by simp)
  simp [dotted, hstar]

/-- What opens with such a stem opens with no sign and no blank. -/
theorem OfLetters.follows (h : OfLetters stem) (rest : List Char) :
    Tag.Follows (dotted stem ++ rest) .plain := by
  intro _ c hc
  have hmem : c ∈ dotted stem := by
    rw [List.head?_append_of_ne_nil _ (by simp [dotted])] at hc
    exact List.mem_of_head? hc
  rw [dotted, List.mem_append, List.mem_singleton] at hmem
  rcases hmem with hmem | rfl
  · exact ⟨ne_of_mem_of_not_mem hmem (h.isTextName.mark_not_mem (by simp)),
      ne_of_mem_of_not_mem hmem (h.isTextName.mark_not_mem (by simp)),
      Script.isBlank_of_isNameChar (h.isTextName c hmem)⟩
  · decide

end Text

namespace Tag

variable {stem : String}

/-- Whether an identifier belongs to a stem, ignoring case. -/
def under (stem : String) (p : Tag) : Bool := startsWithFold p.value.toList (dotted stem)

/-- A tag that is a level behind a stem. -/
structure IsLevel (t : Tag) (stem : String) (n : Int) : Prop where
  raw_eq : t.raw = levelText stem n
  plain : t.mode = .plain
  value_eq : t.value = levelText stem n
  meter_eq : t.meter = .ofValue n

/-- A number behind a stem is a numeral of its own and no marker. -/
theorem numeralBehind_dotted (h : OfLetters stem) (n : Int) :
    NumeralBehind (dotted stem) (writeLevel n) ∧ Unmarked (dotted stem ++ writeLevel n) := by
  have hdigits : ∀ c ∈ writeCount n.natAbs, c.isDigit = true := fun c => isDigit_of_mem_writeCount
  have hdot : ∀ c, (dotted stem).getLast? = some c → c.isDigit = false ∧ c ≠ '-' := by
    rintro c hc
    obtain rfl := Option.some.inj ((getLast?_dotted stem).symm.trans hc)
    decide
  by_cases hneg : n < 0
  · rw [writeLevel_of_neg hneg]
    exact ⟨.signed (writeCount_ne_nil _) hdigits,
      unmarked_append_minus h.bare_dotted.unmarked (fun hlast => (hdot _ hlast).2 rfl) hdigits⟩
  · rw [writeLevel_of_nonneg (by omega)]
    exact ⟨.unsigned (writeCount_ne_nil _) hdigits hdot,
      unmarked_append_digits h.bare_dotted.unmarked hdigits⟩

/-- A level on the scale is read as one. -/
theorem exists_level (h : OfLetters stem) {n : Int} (hlow : minLevel ≤ n) (hhigh : n ≤ maxLevel) :
    ∃ t, parse (levelText stem n) = .ok t ∧ t.IsLevel stem n := by
  obtain ⟨hbehind, hunmarked⟩ := numeralBehind_dotted h n
  have hshows : ShowsLevel (dotted stem) n (dotted stem ++ writeLevel n) :=
    ⟨hunmarked, writeLevel n, hbehind, rfl, readLevel_writeLevel hlow hhigh⟩
  have hclose : Closes (dotted stem ++ writeLevel n) none := by
    refine ⟨splitLocation_eq_self_iff.mpr ?_, fun c hc =>
      (not_mark_of_numeral (.inl (hshows.isDigit_getLast? hc))).2.2.2.2⟩
    rw [hshows.brackets_eq, brackets_eq_nil h.bare_dotted.unbracketed]
    exact fun hopens => absurd hopens (by decide)
  obtain ⟨t, ht, hraw, hmode, hvalue, -, hmeter⟩ :=
    parse_compose (by simp [dotted]) hunmarked (h.follows _) hclose
  rw [splitNumeral_append hbehind, if_neg (by simp [dotted]),
    readLevel_writeLevel hlow hhigh] at hmeter
  exact ⟨t, ht, hraw, hmode, by rw [levelText, ← hvalue, String.ofList_toList], hmeter⟩

namespace IsLevel

variable {t : Tag} {n : Int}

/-- A level behind a stem is under it. -/
theorem under_stem (h : t.IsLevel stem n) : t.under stem = true := by
  rw [under, h.value_eq, levelText, String.toList_ofList, startsWithFold, fold, fold,
    List.map_append, List.isPrefixOf_iff_prefix]
  exact List.prefix_append _ _

/-- A level behind a stem can be moved unless it is an extreme one. -/
theorem hasMeter (h : t.IsLevel stem n) (hlow : minLevel < n) (hhigh : n < maxLevel) :
    t.hasMeter = true := by
  simp [Tag.hasMeter, h.meter_eq, Meter.hasValue, Meter.ofValue, hlow, hhigh]

/-- A level is read back from its identifier. -/
theorem parse_value (h : t.IsLevel stem n) : parse t.value = .ok t := by
  rw [h.value_eq, ← h.raw_eq, parse_raw]

/-- Levels that read alike are equal. -/
theorem level_eq {t' : Tag} {n' : Int} (h : t.IsLevel stem n) (h' : t'.IsLevel stem n')
    (hvalue : t.value = t'.value) : n = n' := by
  obtain rfl : t = t' := ext_raw (by rw [h.raw_eq, h'.raw_eq, ← h.value_eq, ← h'.value_eq, hvalue])
  exact congrArg Meter.value (h.meter_eq.symm.trans h'.meter_eq)

/-- A step on the scale leads from one level to the other. -/
theorem incremented_eq {t' : Tag} {k : Int} (h : t.IsLevel stem n) (h' : t'.IsLevel stem (n + k))
    (hlow : minLevel ≤ n + k) (hhigh : n + k ≤ maxLevel) :
    t.incremented k none .plain = .ok t' := by
  have hmeter : t.meter.value = n := congrArg Meter.value h.meter_eq
  have hclamp : clampLevel (n + k) = n + k := by
    rw [clampLevel]
    omega
  have hmoved : compose .plain (dotted stem ++ writeLevel (n + k)) none = t'.value :=
    h'.value_eq.symm
  simp only [incremented]
  rw [hmeter, hclamp, h.value_eq, levelText, String.toList_ofList,
    replaceLast_append (writeLevel_ne_nil n), hmoved, h'.parse_value]

end IsLevel

/-! ### What is looked up under a stem -/

/-- Among literal tags a wildcard behind a stem finds those under it, as they are. -/
theorem IsWildcard.expand_eq_filter {t : Tag} (hwildcard : IsWildcard t (dotted stem) [] none)
    (h : OfLetters stem) (hmode : t.mode = .plain) (hlocation : t.location = none) {pool : List Tag}
    (hpool : ∀ p ∈ pool, p.Literal) : t.expand pool = .ok (pool.filter (under stem)) := by
  have hbetween : between (dotted stem) [] pool = pool.filter (under stem) := by
    simp only [between, endsWithFold, fold, List.map_nil, List.isSuffixOf_nil_left, Bool.and_true]
    rfl
  have hmoved : (between (dotted stem) [] pool).mapM (fun p =>
      (p.relocated t.location t.mode).toExpanded) = .ok (pool.filter (under stem)) := by
    rw [hbetween, hlocation, hmode]
    refine (mapM_eq_ok (g := id) fun p hp => ?_).trans (by rw [List.map_id])
    rw [(hpool p (List.mem_filter.mp hp).1).relocated_eq]
    rfl
  have hfillings : fillings (dotted stem) [] pool = [] := by
    have hdots : (dotted stem ++ []).count '.' < 2 := by
      simp [dotted, List.count_eq_zero.mpr h.dotless]
    rw [fillings, if_pos hdots]
  rw [hwildcard.expand_eq, hmoved, hfillings]
  simp only [Bind.bind, Except.bind]
  split
  · rfl
  · next hnone =>
    rw [Bool.not_eq_true', Bool.not_eq_false, List.isEmpty_iff] at hnone
    rw [hnone]
    rfl

/-- A star behind a stem is a wildcard. -/
theorem exists_anyLevel (h : OfLetters stem) :
    ∃ t, parse (stem ++ ".*") = .ok t ∧ t.isTemplate = true ∧
      ∀ {pool : List Tag}, (∀ p ∈ pool, p.Literal) →
        t.expand pool = .ok (pool.filter (under stem)) := by
  have hbare : Text.Bare (dotted stem ++ ['*']) := h.bare_dotted.append_cons_star .nil
  have hunnamed : Inert none := fun _ h => absurd h (Option.some_ne_none _).symm
  obtain ⟨t, ht, hraw, hmode, -, hlocation, -⟩ := parse_compose (by simp) hbare.unmarked
    (h.follows ['*']) (closes_of_bare hbare hunnamed)
  have htext : compose .plain (dotted stem ++ ['*']) none = stem ++ ".*" := by
    rw [← String.toList_inj, compose, String.toList_ofList, String.toList_append]
    simp [dotted, TagMode.sign]
  have hwildcard : IsWildcard t (dotted stem) [] none := {
    raw_eq := by rw [hraw, hmode]
    before_starless := h.starless_dotted
    before_bare := h.bare_dotted
    after_starless := List.not_mem_nil
    after_bare := .nil
    before_end := .inr (getLast?_dotted stem)
    after_start := .inl rfl
    not_alone := .inl (by simp [dotted])
    name_inert := hunnamed }
  exact ⟨t, htext ▸ ht, isTemplate_of_star (by simp [hwildcard.read.1]),
    hwildcard.expand_eq_filter h hmode hlocation⟩

/-- What stands behind two pluses is read as a step. -/
theorem splitMeter_step (tag : String) {name digits : List Char}
    (hdots : ¬ ['.', '.'] <:+: name ++ '+' :: '+' :: digits) (hdigits : '+' ∉ digits) :
    splitMeter tag (name ++ '+' :: '+' :: digits) =
      (readStep tag ['+', '+'] digits).map fun step => (name, .ofStep step) := by
  have hcut : splitLast ['+', '+'] (name ++ '+' :: '+' :: digits) = some (name, digits) := by
    have hlater : splitLast ['+', '+'] ('+' :: digits) = none := by
      refine splitLast_eq_none_iff.mpr fun hin => ?_
      rcases List.infix_cons_iff.mp hin with hin | hin
      · exact hdigits ((List.cons_prefix_cons.mp hin).2.subset List.mem_cons_self)
      · exact hdigits (hin.subset List.mem_cons_self)
    have hhere : splitLast ['+', '+'] ('+' :: '+' :: digits) = some ([], digits) := by
      rw [splitLast, hlater]
      rfl
    simpa using splitLast_append_left hhere name
  simp only [splitMeter, splitLast_eq_none_iff.mpr hdots, hcut]
  cases readStep tag ['+', '+'] digits <;> rfl

/-- A step behind a stem has no dots in a row, no bracket and no blank. -/
theorem step_bare (h : OfLetters stem) {digits : List Char}
    (hdigits : ∀ c ∈ digits, c.isDigit = true) :
    ¬ ['.', '.'] <:+: dotted stem ++ '+' :: '+' :: digits ∧
      ∀ c ∈ dotted stem ++ '+' :: '+' :: digits, c ≠ '<' ∧ isBlank c = false := by
  constructor
  · intro hin
    rcases pair_infix_append hin with hin | hin | ⟨-, hhead⟩
    · exact h.bare_dotted.unmarked ('.', '.') (by decide) hin
    · have hmem : '.' ∈ digits := by simpa using hin.subset (List.mem_cons_self (a := '.'))
      exact absurd (hdigits _ hmem) (by decide)
    · exact absurd (Option.some.inj hhead) (by decide)
  · intro c hc
    simp only [List.mem_append, List.mem_cons] at hc
    rcases hc with hc | rfl | rfl | hc
    · exact ⟨(h.bare_dotted.unbracketed c hc).1, h.bare_dotted.unspaced c hc⟩
    · decide
    · decide
    · have hmark := not_mark_of_numeral (.inl (hdigits c hc))
      exact ⟨hmark.1, hmark.2.2.2.2⟩

/-- What a step behind a stem says, if its number can be read. -/
theorem read_stepText (h : OfLetters stem) {k : Int} (hpos : 0 < k) :
    trim (stepText stem k).toList = (stepText stem k).toList ∧
      TagParts.read (stepText stem k) =
        (readStep (stepText stem k) ['+', '+'] (writeLevel k)).map fun step =>
          ⟨.plain, String.ofList (dotted stem), none, .ofStep step⟩ := by
  have hdigits : ∀ c ∈ writeLevel k, c.isDigit = true := by
    rw [writeLevel_of_nonneg hpos.le]
    exact fun c => isDigit_of_mem_writeCount
  have hplus : '+' ∉ writeLevel k := fun hmem => absurd (hdigits _ hmem) (by decide)
  obtain ⟨hdots, hchars⟩ := step_bare h hdigits
  have htext : (stepText stem k).toList = dotted stem ++ '+' :: '+' :: writeLevel k := by
    simp [stepText, dotted]
  have hlocation : splitLocation (dotted stem ++ '+' :: '+' :: writeLevel k) =
      (dotted stem ++ '+' :: '+' :: writeLevel k, none) := by
    rw [splitLocation, splitLast_eq_none fun hmem => (hchars _ hmem).1 rfl]
  have hsign := (h.follows ('+' :: '+' :: writeLevel k)).splitSign_eq
  rw [TagMode.sign, List.nil_append] at hsign
  have hne : (dotted stem).isEmpty = false := by simp [dotted]
  refine ⟨by rw [htext, trim_eq_self fun c hc => (hchars c hc).2], ?_⟩
  generalize stepText stem k = tag at htext ⊢
  unfold TagParts.read
  rw [htext]
  simp only [hlocation, hsign, splitMeter_step tag hdots hplus]
  cases readStep tag ['+', '+'] (writeLevel k) <;> simp [hne, Bind.bind, Except.bind, Pure.pure,
    Except.pure, Except.map]

/-- A step that a tag can hold is a template that moves whatever has a level under the stem. -/
theorem exists_step (h : OfLetters stem) {k : Int} (hpos : 0 < k) (hhigh : k ≤ maxLevel) :
    ∃ t, parse (stepText stem k) = .ok t ∧ t.isTemplate = true ∧
      ∀ pool : List Tag, t.expand pool =
        (pool.filter fun p => under stem p && p.hasMeter).mapM fun p =>
          (p.incremented k none .plain).toExpanded := by
  obtain ⟨htrim, hparts⟩ := read_stepText h hpos
  have hlow : minLevel ≤ k := Int.le_of_lt (Int.lt_of_lt_of_le (by decide) hpos)
  have hnumber : readStep (stepText stem k) ['+', '+'] (writeLevel k) = .ok k := by
    simp [readStep, writeLevel_ne_nil k, readLevel_writeLevel hlow hhigh]
  rw [hnumber] at hparts
  let t : Tag := ⟨stepText stem k, _, htrim, hparts⟩
  have hvalue : t.value.toList = dotted stem := String.toList_ofList
  have hincrement : t.isIncrement = true := by
    have hpluses : occurs ['+', '+'] t.raw.toList = true :=
      occurs_iff.mpr ⟨dotted stem, writeLevel k, by simp [t, stepText, dotted]⟩
    rw [isIncrement, hpluses]
    exact decide_eq_true hpos
  have htemplate : t.isTemplate = true := by simp [isTemplate, hincrement]
  refine ⟨t, parse_raw t, htemplate, fun pool => ?_⟩
  have hwild : Wildcard.ofValue? t.value.toList = none :=
    ofValue?_eq_none (hvalue ▸ h.starless_dotted)
  rw [expand, htemplate, hwild, hincrement, hvalue]
  rfl

/-- A greater step is no tag. -/
theorem step_le_maxLevel (h : OfLetters stem) {k : Int} (hpos : 0 < k) {t : Tag}
    (ht : parse (stepText stem k) = .ok t) : k ≤ maxLevel := by
  obtain ⟨htrim, hparts⟩ := read_stepText h hpos
  have hraw : t.raw = stepText stem k := by
    rw [raw_of_parse ht, htrim, String.ofList_toList]
  by_contra hlarge
  have hunread : readLevel (writeLevel k) = none :=
    readLevel_writeLevel_of_large (Int.not_le.mp hlarge)
  have hnumber : readStep (stepText stem k) ['+', '+'] (writeLevel k) =
      .error (.notANumber (stepText stem k) "++" (String.ofList (writeLevel k))) := by
    simp [readStep, writeLevel_ne_nil k, hunread]
  rw [hnumber, ← hraw, t.read_raw] at hparts
  cases hparts

end Tag

end StoryTape
