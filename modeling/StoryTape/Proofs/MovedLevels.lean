import Mathlib.Data.List.Basic
import StoryTape.Proofs.ComposedTags
import StoryTape.Proofs.CounterTags
import StoryTape.Proofs.PlainPool

/-!
# Levels that are moved

A level is moved on the text of its tag: the last occurrence of the old level, in its shortest
form, makes room for the new one, and the text is read anew. The level of the result is the moved
one, behind the same stem, as long as that occurrence is where the numeral ends. A numeral written
with zeros behind its minus sign is not in its shortest form: the old level is then found further
in front, or not at all. And a minus sign that comes or goes must not leave the stem longer or
shorter by a digit.
-/

namespace StoryTape

open Text

namespace Text

/-! ### Numerals and markers -/

/-- A level on the scale is read as it is written. -/
theorem readLevel_writeLevel {n : Int} (hlow : minLevel ≤ n) (hhigh : n ≤ maxLevel) :
    readLevel (writeLevel n) = some n := by
  have hdigits : ∀ c ∈ writeCount n.natAbs, c.isDigit = true := fun c => isDigit_of_mem_writeCount
  have hvalue := digitsValue_writeCount n.natAbs
  by_cases hneg : n < 0
  · rw [writeLevel_of_neg hneg, readLevel_of_minus (writeCount_ne_nil _) hdigits (by omega)]
    exact congrArg some (by omega)
  · rw [writeLevel_of_nonneg (by omega),
      readLevel_of_digits (writeCount_ne_nil _) hdigits (by omega)]
    exact congrArg some (by omega)

/-- A level that is not negative is written without sign. -/
theorem writeLevel_head?_of_nonneg {n : Int} (hn : 0 ≤ n) : (writeLevel n).head? ≠ some '-' := by
  intro hhead
  rw [writeLevel_of_nonneg hn] at hhead
  exact absurd (isDigit_of_mem_writeCount (List.mem_of_head? hhead)) (by decide)

/-- In front of its shortest form a digit string has zeros only. -/
theorem exists_zeros {digits : List Char} (hne : digits ≠ [])
    (hdigits : ∀ c ∈ digits, c.isDigit = true) :
    ∃ zeros, digits = zeros ++ writeLevel (digitsValue digits) ∧ digitsValue zeros = 0 ∧
      ∀ c ∈ zeros, c.isDigit = true := by
  have hwrite : writeLevel (digitsValue digits) = writeCount (digitsValue digits) := by
    rw [writeLevel_of_nonneg (by omega), Int.natAbs_natCast]
  obtain ⟨zeros, hzeros⟩ := writeCount_digitsValue_suffix hne hdigits
  have hvalue := congrArg digitsValue hzeros
  rw [digitsValue_append, digitsValue_writeCount] at hvalue
  have hzero : digitsValue zeros * 10 ^ (writeCount (digitsValue digits)).length = 0 := by omega
  have hpos : 10 ^ (writeCount (digitsValue digits)).length ≠ 0 :=
    Nat.pos_iff_ne_zero.mp (Nat.pow_pos (by decide))
  exact ⟨zeros, by rw [hwrite, hzeros], (Nat.mul_eq_zero.mp hzero).resolve_right hpos,
    fun c hc => hdigits c (hzeros ▸ List.mem_append_left _ hc)⟩

/-- A numeral that goes on behind its shortest form is zero. -/
theorem digitsValue_eq_zero_of_longer {after digits : List Char} (hafter : after ≠ [])
    (h : writeCount (digitsValue digits) ++ after = digits) : digitsValue digits = 0 := by
  have hvalue := congrArg digitsValue h
  rw [digitsValue_append, digitsValue_writeCount] at hvalue
  obtain ⟨c, r, rfl⟩ := List.exists_cons_of_ne_nil hafter
  have hten : 10 ≤ 10 ^ (c :: r).length :=
    Nat.le_pow (by simp)
  have hmul := Nat.mul_le_mul_left (digitsValue digits) hten
  omega

/-- Digits in the place of a numeral make no marker. -/
theorem unmarked_append_digits {stem digits : List Char} (h : Unmarked stem)
    (hdigits : ∀ c ∈ digits, c.isDigit = true) : Unmarked (stem ++ digits) := by
  intro m hm hin
  have hsecond := (isDigit_meterMarkers m hm).2
  have hnot : m.2 ∉ digits := fun hmem => by
    rw [hdigits _ hmem] at hsecond
    cases hsecond
  rcases pair_infix_append hin with hin | hin | ⟨-, hhead⟩
  · exact h m hm hin
  · exact hnot (hin.subset (by simp))
  · exact hnot (List.mem_of_head? hhead)

/-- Nor do they behind a minus sign that follows no other. -/
theorem unmarked_append_minus {stem digits : List Char} (h : Unmarked stem)
    (hlast : stem.getLast? ≠ some '-') (hdigits : ∀ c ∈ digits, c.isDigit = true) :
    Unmarked (stem ++ '-' :: digits) := by
  rw [List.append_cons]
  have hstem : Unmarked (stem ++ ['-']) := by
    intro m hm hin
    rcases pair_infix_append hin with hin | hin | ⟨hfirst, hhead⟩
    · exact h m hm hin
    · exact absurd hin.length_le (by simp)
    · rw [eq_minus_of_mem_meterMarkers m hm (Option.some.inj hhead).symm] at hfirst
      exact hlast hfirst
  exact unmarked_append_digits hstem hdigits

/-- In front of a numeral that makes no marker stands no minus sign. -/
theorem getLast?_ne_minus {stem numeral : List Char} (hbehind : NumeralBehind stem numeral)
    (h : Unmarked (stem ++ numeral)) : stem.getLast? ≠ some '-' := by
  intro hlast
  cases hbehind with
  | signed =>
    obtain ⟨x, rfl⟩ := List.getLast?_eq_some_iff.mp hlast
    exact h ('-', '-') (by decide) ⟨x, _, by simp; rfl⟩
  | unsigned _ _ hnot => exact (hnot '-' hlast).2 rfl

/-- A text ends with one numeral only. -/
theorem numeralBehind_unique {a b x y : List Char} (hx : NumeralBehind a x)
    (hy : NumeralBehind b y) (h : a ++ x = b ++ y) : a = b ∧ x = y :=
  Prod.mk.inj ((splitNumeral_append hx).symm.trans ((congrArg _ h).trans (splitNumeral_append hy)))

/-- In front of a numeral without sign stands no digit. -/
theorem unsigned_of_numeralBehind {stem numeral : List Char} (h : NumeralBehind stem numeral)
    (hsign : numeral.head? ≠ some '-') {c : Char} (hc : stem.getLast? = some c) :
    c.isDigit = false := by
  cases h with
  | signed => exact absurd rfl hsign
  | unsigned _ _ hlast => exact (hlast c hc).1

/-- A minus sign and digits behind it, found in a text that ends with a numeral below zero, open the
numeral or stand in front of it. -/
theorem opens_or_suffix {stem digits before w after : List Char} (hdigits : '-' ∉ digits)
    (hw : '-' ∉ w) (h : before ++ '-' :: w ++ after = stem ++ '-' :: digits) :
    digits = w ++ after ∨ '-' :: digits <:+ after := by
  rw [List.append_assoc, List.cons_append] at h
  have hsuffix : '-' :: digits <:+ '-' :: (w ++ after) ∨ '-' :: (w ++ after) <:+ '-' :: digits :=
    List.suffix_or_suffix_of_suffix ⟨stem, rfl⟩ ⟨before, h⟩
  have hsame : '-' :: digits = '-' :: (w ++ after) ∨ '-' :: digits <:+ w ++ after := by
    rcases hsuffix with hsuffix | hsuffix
    · exact List.suffix_cons_iff.mp hsuffix
    · rcases List.suffix_cons_iff.mp hsuffix with heq | hin
      · exact .inl heq.symm
      · exact absurd (hin.subset List.mem_cons_self) hdigits
  rcases hsame with heq | ⟨front, hfront⟩
  · exact .inl (List.cons.inj heq).2
  · rcases List.append_eq_append_iff.mp hfront with ⟨mid, rfl, hmid⟩ | ⟨mid, -, rfl⟩
    · cases mid with
      | nil => exact .inr ⟨[], hmid⟩
      | cons c mid =>
        obtain ⟨rfl, -⟩ := List.cons.inj hmid
        exact absurd (by simp) hw
    · exact .inr ⟨mid, rfl⟩

/-! ### Moving a level -/

/-- Replacing a text by itself changes nothing. -/
theorem replaceLast_self (old s : List Char) : Tag.replaceLast old old s = s := by
  rw [Tag.replaceLast]
  split
  · rfl
  · next before after hcut => exact (eq_append_of_splitLast hcut).symm

/-- The text at the end is the last one, and is replaced. -/
theorem replaceLast_append {old : List Char} (hold : old ≠ []) (new before : List Char) :
    Tag.replaceLast old new (before ++ old) = before ++ new := by
  rw [Tag.replaceLast, splitLast_append_self hold]
  simp

/-- Behind its zeros a digit string is rewritten. -/
theorem replaceLast_append_digits {zeros digits : List Char}
    (h : digits = zeros ++ writeLevel (digitsValue digits)) (new front : List Char) :
    Tag.replaceLast (writeLevel (digitsValue digits)) new (front ++ digits) =
      front ++ (zeros ++ new) := by
  have hs : front ++ digits = (front ++ zeros) ++ writeLevel (digitsValue digits) := by
    rw [List.append_assoc, ← h]
  rw [hs, replaceLast_append (writeLevel_ne_nil _), List.append_assoc]

/-- Replacing a numeral by another leaves some text. -/
theorem replaceLast_ne_nil (v n : Int) {s : List Char} (hs : s ≠ []) :
    Tag.replaceLast (writeLevel v) (writeLevel n) s ≠ [] := by
  rw [Tag.replaceLast]
  split
  · exact hs
  · simp [writeLevel_ne_nil]

/-- A text that is read as a level behind a stem. -/
def ShowsLevel (stem : List Char) (n : Int) (s : List Char) : Prop :=
  Unmarked s ∧ ∃ numeral, NumeralBehind stem numeral ∧ s = stem ++ numeral ∧
    readLevel numeral = some n

/-- When rewriting a numeral moves its level: the level stays; or a numeral without sign gets none;
or the numeral is in its shortest form, and if its sign goes, it does not run into digits. -/
def Movable (stem numeral : List Char) (v n : Int) : Prop :=
  n = v ∨ (numeral.head? ≠ some '-' ∧ 0 ≤ n) ∨
    (numeral = writeLevel v ∧
      (v < 0 → 0 ≤ n → ∀ c, stem.getLast? = some c → c.isDigit = false))

section Moves

variable {stem numeral : List Char} {v n : Int}

/-- A numeral without sign keeps its zeros in front. -/
theorem showsLevel_of_unsigned (hbehind : NumeralBehind stem numeral)
    (hunmarked : Unmarked (stem ++ numeral)) (hread : readLevel numeral = some v)
    (hsign : numeral.head? ≠ some '-') (hn : 0 ≤ n) (hscale : n ≤ maxLevel) :
    ShowsLevel stem n (Tag.replaceLast (writeLevel v) (writeLevel n) (stem ++ numeral)) := by
  cases hbehind with
  | signed => exact absurd rfl hsign
  | unsigned hne hdigits hlast =>
    obtain ⟨-, rfl⟩ := eq_digitsValue_of_readLevel hdigits hread
    obtain ⟨zeros, hzeros, hzero, hzeroDigits⟩ := exists_zeros hne hdigits
    have hall : ∀ c ∈ zeros ++ writeCount n.natAbs, c.isDigit = true := fun c hc =>
      (List.mem_append.mp hc).elim (hzeroDigits c) isDigit_of_mem_writeCount
    have hne' : zeros ++ writeCount n.natAbs ≠ [] := by simp [writeCount_ne_nil]
    have hvalue : (digitsValue (zeros ++ writeCount n.natAbs) : Int) = n := by
      rw [digitsValue_append, hzero, digitsValue_writeCount]
      omega
    rw [replaceLast_append_digits hzeros, writeLevel_of_nonneg hn]
    have hstem : Unmarked stem := hunmarked.mono (List.prefix_append _ _).isInfix
    refine ⟨unmarked_append_digits hstem hall, _, .unsigned hne' hall hlast, rfl, ?_⟩
    rw [readLevel_of_digits hne' hall (by omega), hvalue]

/-- A numeral in its shortest form is rewritten as a whole. -/
theorem showsLevel_of_shortest (hbehind : NumeralBehind stem (writeLevel v))
    (hunmarked : Unmarked (stem ++ writeLevel v))
    (hstem : v < 0 → 0 ≤ n → ∀ c, stem.getLast? = some c → c.isDigit = false)
    (hlow : minLevel ≤ n) (hhigh : n ≤ maxLevel) :
    ShowsLevel stem n
      (Tag.replaceLast (writeLevel v) (writeLevel n) (stem ++ writeLevel v)) := by
  have hminus := getLast?_ne_minus hbehind hunmarked
  have hfront : Unmarked stem := hunmarked.mono (List.prefix_append _ _).isInfix
  have hdigits : ∀ c ∈ writeCount n.natAbs, c.isDigit = true := fun c => isDigit_of_mem_writeCount
  have hread := readLevel_writeLevel hlow hhigh
  rw [replaceLast_append (writeLevel_ne_nil _)]
  by_cases hneg : n < 0
  · rw [writeLevel_of_neg hneg] at hread ⊢
    exact ⟨unmarked_append_minus hfront hminus hdigits, _,
      .signed (writeCount_ne_nil _) hdigits, rfl, hread⟩
  · have hn : 0 ≤ n := by omega
    rw [writeLevel_of_nonneg hn] at hread ⊢
    refine ⟨unmarked_append_digits hfront hdigits, _,
      .unsigned (writeCount_ne_nil _) hdigits fun c hc => ⟨?_, ?_⟩, rfl, hread⟩
    · by_cases hv : v < 0
      · exact hstem hv hn c hc
      · -- An old level without sign stood behind no digit either.
        exact unsigned_of_numeralBehind hbehind (writeLevel_head?_of_nonneg (by omega)) hc
    · rintro rfl
      exact hminus hc

/-- A numeral without sign gets one only if no zeros stand in front of its shortest form. -/
theorem eq_writeLevel_of_unsigned (hne : numeral ≠ []) (hdigits : ∀ c ∈ numeral, c.isDigit = true)
    (hread : readLevel numeral = some v) (hneg : n < 0)
    (h : ShowsLevel stem n
      (Tag.replaceLast (writeLevel v) (writeLevel n) (stem ++ numeral))) :
    numeral = writeLevel v := by
  obtain ⟨-, rfl⟩ := eq_digitsValue_of_readLevel hdigits hread
  obtain ⟨zeros, hzeros, -⟩ := exists_zeros hne hdigits
  rw [replaceLast_append_digits hzeros, writeLevel_of_neg hneg, ← List.append_assoc] at h
  obtain ⟨-, shown, hbehind, hshown, -⟩ := h
  have hsigned : NumeralBehind (stem ++ zeros) ('-' :: writeCount n.natAbs) :=
    .signed (writeCount_ne_nil _) fun c => isDigit_of_mem_writeCount
  have hnil : zeros = [] := by simpa using (numeralBehind_unique hsigned hbehind hshown).1
  rwa [hnil, List.nil_append] at hzeros

/-- A zero behind a minus sign cannot be moved. -/
theorem not_showsLevel_of_minus_zero {digits : List Char} (hne : digits ≠ [])
    (hdigits : ∀ c ∈ digits, c.isDigit = true) (hzero : digitsValue digits = 0) (hn : n ≠ 0) :
    ¬ ShowsLevel stem n
      (Tag.replaceLast (writeLevel 0) (writeLevel n) (stem ++ '-' :: digits)) := by
  rintro ⟨-, numeral, hbehind, hshown, hread⟩
  obtain ⟨zeros, hzeros, -, hzeroDigits⟩ := exists_zeros hne hdigits
  have hmoved := replaceLast_append_digits hzeros (writeLevel n) (stem ++ ['-'])
  rw [hzero, ← List.append_cons] at hmoved
  rw [show writeLevel 0 = writeLevel ((0 : Nat) : Int) from rfl, hmoved] at hshown
  have hcount : ∀ c ∈ writeCount n.natAbs, c.isDigit = true := fun c => isDigit_of_mem_writeCount
  by_cases hneg : n < 0
  · rw [writeLevel_of_neg hneg, ← List.append_assoc] at hshown
    have hstem := (numeralBehind_unique (.signed (writeCount_ne_nil _) hcount) hbehind hshown).1
    simp at hstem
  · rw [writeLevel_of_nonneg (by omega), ← List.append_cons] at hshown
    have hall : ∀ c ∈ zeros ++ writeCount n.natAbs, c.isDigit = true := fun c hc =>
      (List.mem_append.mp hc).elim (hzeroDigits c) (hcount c)
    obtain ⟨-, rfl⟩ := numeralBehind_unique (.signed (by simp [writeCount_ne_nil]) hall) hbehind
      hshown
    have hvalue := eq_neg_digitsValue_of_readLevel hread
    omega

/-- Behind a minus sign only a numeral in its shortest form can be moved. -/
theorem eq_writeLevel_of_signed {digits : List Char} (hne : digits ≠ [])
    (hdigits : ∀ c ∈ digits, c.isDigit = true) (hread : readLevel ('-' :: digits) = some v)
    (hnv : n ≠ v) (h : ShowsLevel stem n
      (Tag.replaceLast (writeLevel v) (writeLevel n) (stem ++ '-' :: digits))) :
    '-' :: digits = writeLevel v := by
  obtain rfl := eq_neg_digitsValue_of_readLevel hread
  by_cases hzero : digitsValue digits = 0
  · rw [hzero] at h hnv
    exact absurd h (not_showsLevel_of_minus_zero hne hdigits hzero hnv)
  have hold : writeLevel (-(digitsValue digits : Int)) =
      '-' :: writeCount (digitsValue digits) := by
    rw [writeLevel_of_neg (by omega), Int.natAbs_neg, Int.natAbs_natCast]
  -- A text that still ends with the old numeral still shows the old level.
  have hkept : ∀ front, ¬ ShowsLevel stem n (front ++ '-' :: digits) := by
    rintro front ⟨-, numeral, hbehind, hshown, hlevel⟩
    obtain ⟨-, rfl⟩ := numeralBehind_unique (.signed hne hdigits) hbehind hshown
    exact hnv (Option.some.inj (hlevel.symm.trans hread))
  rw [Tag.replaceLast] at h
  cases hcut : splitLast (writeLevel (-(digitsValue digits : Int))) (stem ++ '-' :: digits) with
  | none =>
    rw [hcut] at h
    exact absurd h (hkept stem)
  | some cut =>
    obtain ⟨before, after⟩ := cut
    rw [hcut] at h
    have hwhole := (eq_append_of_splitLast hcut).symm
    rw [hold] at hwhole ⊢
    have hnoMinus : ∀ {s : List Char}, (∀ c ∈ s, c.isDigit = true) → '-' ∉ s := fun hs hmem =>
      absurd (hs '-' hmem) (by decide)
    rcases opens_or_suffix (hnoMinus hdigits)
      (hnoMinus fun c => isDigit_of_mem_writeCount) hwhole with hopens | ⟨front, rfl⟩
    · cases after with
      | nil =>
        rw [List.append_nil] at hopens
        rw [← hopens]
      | cons c after =>
        exact absurd (digitsValue_eq_zero_of_longer (List.cons_ne_nil c after) hopens.symm) hzero
    · refine absurd h ?_
      simp only [← List.append_assoc]
      exact hkept _

/-- **When rewriting moves a level.** Replacing the last occurrence of the old level by the new one
gives a text that shows the new level behind the same stem exactly when the numeral is movable. -/
theorem showsLevel_replaceLast_iff (hbehind : NumeralBehind stem numeral)
    (hunmarked : Unmarked (stem ++ numeral)) (hread : readLevel numeral = some v)
    (hlow : minLevel ≤ n) (hhigh : n ≤ maxLevel) :
    ShowsLevel stem n (Tag.replaceLast (writeLevel v) (writeLevel n) (stem ++ numeral)) ↔
      Movable stem numeral v n := by
  constructor
  · intro h
    by_cases hsame : n = v
    · exact .inl hsame
    right
    cases hbehind with
    | signed hne hdigits =>
      have hshortest := eq_writeLevel_of_signed hne hdigits hread hsame h
      refine .inr ⟨hshortest, fun _ hn c hc => ?_⟩
      obtain ⟨-, shown, hbehind, hshown, -⟩ := h
      rw [hshortest, replaceLast_append (writeLevel_ne_nil _)] at hshown
      obtain rfl := List.append_cancel_left hshown
      exact unsigned_of_numeralBehind hbehind (writeLevel_head?_of_nonneg hn) hc
    | unsigned hne hdigits hlast =>
      by_cases hn : 0 ≤ n
      · refine .inl ⟨fun hhead => ?_, hn⟩
        exact absurd (hdigits '-' (List.mem_of_head? hhead)) (by decide)
      · exact .inr ⟨eq_writeLevel_of_unsigned hne hdigits hread (by omega) h,
          fun _ hn' => absurd hn' hn⟩
  · rintro (rfl | ⟨hsign, hn⟩ | ⟨rfl, hstem⟩)
    · rw [replaceLast_self]
      exact ⟨hunmarked, numeral, hbehind, rfl, hread⟩
    · exact showsLevel_of_unsigned hbehind hunmarked hread hsign hn hhigh
    · exact showsLevel_of_shortest hbehind hunmarked hstem hlow hhigh

end Moves

/-! ### What stays of a text -/

/-- A numeral is made of digits and a sign. -/
theorem isDigit_or_eq_of_numeralBehind {stem numeral : List Char} (h : NumeralBehind stem numeral)
    {c : Char} (hc : c ∈ numeral) : c.isDigit = true ∨ c = '-' := by
  cases h with
  | signed _ hdigits => exact (List.mem_cons.mp hc).elim .inr fun hc => .inl (hdigits c hc)
  | unsigned _ hdigits => exact .inl (hdigits c hc)

/-- What a numeral is written with is no bracket, no sign and no blank. -/
theorem not_mark_of_numeral {c : Char} (h : c.isDigit = true ∨ c = '-') :
    c ≠ '<' ∧ c ≠ '>' ∧ c ≠ '?' ∧ c ≠ '!' ∧ isBlank c = false := by
  have hname : Script.isNameChar c = true :=
    h.elim Script.isNameChar_of_isDigit fun hc => hc ▸ rfl
  have hmarks : ∀ mark ∈ ['.', '+', '<', '>', '=', '?', '!', '*'], c ≠ mark := by
    rintro mark hmark rfl
    rw [Script.isNameChar_marks c hmark] at hname
    cases hname
  exact ⟨hmarks _ (by simp), hmarks _ (by simp), hmarks _ (by simp), hmarks _ (by simp),
    Script.isBlank_of_isNameChar hname⟩

/-- A numeral holds no angle bracket. -/
theorem ShowsLevel.brackets_eq {stem s : List Char} {n : Int} (h : ShowsLevel stem n s) :
    brackets s = brackets stem := by
  obtain ⟨-, numeral, hbehind, rfl, -⟩ := h
  have hnil : brackets numeral = [] := brackets_eq_nil fun c hc =>
    have hmark := not_mark_of_numeral (isDigit_or_eq_of_numeralBehind hbehind hc)
    ⟨hmark.1, hmark.2.1⟩
  rw [brackets_append, hnil, List.append_nil]

/-- A text that shows a level begins like its stem. -/
theorem ShowsLevel.head?_eq {stem s : List Char} {n : Int} (h : ShowsLevel stem n s)
    (hstem : stem ≠ []) : s.head? = stem.head? := by
  obtain ⟨-, numeral, -, rfl, -⟩ := h
  exact List.head?_append_of_ne_nil _ hstem

/-- A text that shows a level ends with a digit. -/
theorem ShowsLevel.isDigit_getLast? {stem s : List Char} {n : Int} (h : ShowsLevel stem n s)
    {c : Char} (hc : s.getLast? = some c) : c.isDigit = true := by
  obtain ⟨-, numeral, hbehind, rfl, -⟩ := h
  cases hbehind with
  | signed hne hdigits =>
    rw [List.getLast?_append_cons, List.getLast?_cons_of_ne_nil hne] at hc
    exact hdigits c (List.mem_of_getLast? hc)
  | unsigned hne hdigits =>
    rw [List.getLast?_append, Option.or_of_isSome (by simpa using hne)] at hc
    exact hdigits c (List.mem_of_getLast? hc)

/-- Rewriting a level leaves the brackets alone. -/
theorem brackets_replaceLast (v n : Int) (s : List Char) :
    brackets (Tag.replaceLast (writeLevel v) (writeLevel n) s) = brackets s := by
  have hnil : ∀ k : Int, brackets (writeLevel k) = [] := fun k => brackets_eq_nil fun c hc =>
    have hmark := not_mark_of_numeral (isDigit_or_eq_of_mem_writeLevel hc)
    ⟨hmark.1, hmark.2.1⟩
  rw [Tag.replaceLast]
  split
  · rfl
  · next before after hcut =>
    rw [eq_append_of_splitLast hcut]
    simp only [brackets_append, hnil]

/-- A rewritten text opens as before or with the new level. -/
theorem head?_replaceLast {v n : Int} {s : List Char} {c : Char}
    (h : (Tag.replaceLast (writeLevel v) (writeLevel n) s).head? = some c) :
    s.head? = some c ∨ c.isDigit = true ∨ c = '-' := by
  rw [Tag.replaceLast] at h
  split at h
  · exact .inl h
  · next before after hcut =>
    rw [eq_append_of_splitLast hcut]
    cases before with
    | nil =>
      rw [List.nil_append, List.head?_append_of_ne_nil _ (writeLevel_ne_nil n)] at h
      exact .inr (isDigit_or_eq_of_mem_writeLevel (List.mem_of_head? h))
    | cons d before => exact .inl h

/-- And it ends as before or with the new level. -/
theorem getLast?_replaceLast {v n : Int} {s : List Char} {c : Char}
    (h : (Tag.replaceLast (writeLevel v) (writeLevel n) s).getLast? = some c) :
    s.getLast? = some c ∨ c.isDigit = true := by
  rw [Tag.replaceLast] at h
  split at h
  · exact .inl h
  · next before after hcut =>
    rw [eq_append_of_splitLast hcut]
    cases hafter : after.getLast? with
    | none =>
      rw [List.getLast?_eq_none_iff.mp hafter, List.append_nil, List.getLast?_append,
        Option.or_of_isSome (by simpa using writeLevel_ne_nil n)] at h
      exact .inr (isDigit_getLast?_writeLevel h)
    | some d =>
      rw [List.getLast?_append, hafter] at h ⊢
      exact .inl h

/-- So it ends with no blank if it ended with a digit. -/
theorem isBlank_getLast?_replaceLast {s : List Char}
    (hlast : ∀ c, s.getLast? = some c → c.isDigit = true) (v n : Int) {c : Char}
    (h : (Tag.replaceLast (writeLevel v) (writeLevel n) s).getLast? = some c) :
    isBlank c = false :=
  have hdigit : c.isDigit = true := (getLast?_replaceLast h).elim (hlast c) id
  (not_mark_of_numeral (.inl hdigit)).2.2.2.2

end Text

namespace Tag

/-- The identifier in front of the numeral it ends with. -/
def stem (t : Tag) : List Char := (splitNumeral t.value.toList).1

/-- The numeral the identifier ends with. -/
def numeral (t : Tag) : List Char := (splitNumeral t.value.toList).2

/-- A location to put a tag in: none, or a name of letters, digits, underscores and hyphens. -/
def Named (location : Option String) : Prop :=
  ∀ name, location = some name → name ≠ "" ∧ Script.IsTextName name

/-- The identifier of a tag with a level shows the level behind its stem. -/
theorem of_hasMeter_stem {t : Tag} (h : t.hasMeter = true) :
    t.stem ≠ [] ∧ NumeralBehind t.stem t.numeral ∧ t.value.toList = t.stem ++ t.numeral ∧
      Unmarked t.value.toList ∧ readLevel t.numeral = some t.meter.value := by
  obtain ⟨hunmarked, -, hread⟩ := of_hasMeter h
  have hne : t.numeral ≠ [] := fun hnil => by
    rw [numeral] at hnil
    rw [hnil] at hread
    cases hread
  exact ⟨(body_of_hasMeter h).2.1, numeralBehind_of_splitNumeral rfl hne,
    (append_splitNumeral _).symm, hunmarked, hread⟩

/-- The identifier of a tag with a level shows it behind the stem. -/
theorem showsLevel_value {t : Tag} (h : t.hasMeter = true) :
    ShowsLevel t.stem t.meter.value t.value.toList := by
  obtain ⟨-, hbehind, hvalue, hunmarked, hread⟩ := of_hasMeter_stem h
  exact ⟨hunmarked, t.numeral, hbehind, hvalue, hread⟩

/-- A location to put a tag in is read back. -/
theorem Named.bind_place {location : Option String} (h : Named location) :
    location.bind (place ·.toList) = location := by
  cases location with
  | none => rfl
  | some name =>
    obtain ⟨hne, hname⟩ := h name rfl
    simp [place, hname.trim_eq, hne]

/-- A rewritten identifier can follow a sign if the old one can. -/
theorem Follows.replaceLast {s : List Char} {mode : TagMode} (h : Follows s mode) (v n : Int) :
    Follows (replaceLast (writeLevel v) (writeLevel n) s) mode := by
  intro hmode c hc
  rcases head?_replaceLast hc with hc | hc
  · exact h hmode c hc
  · obtain ⟨-, -, hmark⟩ := not_mark_of_numeral hc
    exact hmark

/-- And it can precede a location, or none if it has none of its own. -/
theorem closes_replaceLast {s : List Char} {location : Option String} (hlocation : Named location)
    (hfree : location = none → splitLocation s = (s, none))
    (hlast : ∀ c, s.getLast? = some c → c.isDigit = true) (v n : Int) :
    Closes (replaceLast (writeLevel v) (writeLevel n) s) location := by
  cases location with
  | none =>
    refine ⟨?_, fun c => isBlank_getLast?_replaceLast hlast v n⟩
    have hs := splitLocation_eq_self_iff.mp (hfree rfl)
    exact splitLocation_eq_self_iff.mpr (by rwa [brackets_replaceLast])
  | some name => exact (hlocation name rfl).2.mark_not_mem (by simp)

variable {t r : Tag} {mode : TagMode} {location : Option String} {n : Int}

/-- When the level is moved on the text, the tag put together anew shows the new level. -/
theorem exists_parse_of_showsLevel {moved : List Char} (hlocation : Named location)
    (hopen : Follows moved mode) (hclose : Closes moved location) {stem : List Char}
    (hstem : stem ≠ []) (h : ShowsLevel stem n moved) :
    ∃ r, parse (compose mode moved location) = .ok r ∧ r.mode = mode ∧ r.location = location ∧
      r.meter.value = n ∧ r.stem = stem := by
  obtain ⟨hunmarked, numeral, hbehind, rfl, hread⟩ := h
  obtain ⟨r, hr, -, hmode, hvalue, hr_location, hmeter⟩ :=
    parse_compose (by simp [hstem]) hunmarked hopen hclose
  rw [splitNumeral_append hbehind, if_neg hstem, hread] at hmeter
  refine ⟨r, hr, hmode, hr_location.trans hlocation.bind_place, by rw [hmeter]; rfl, ?_⟩
  rw [Tag.stem, hvalue, splitNumeral_append hbehind]

/-- A tag put together anew that kept its stem was read without a location of the identifier's
own. -/
theorem splitLocation_of_parse {moved : List Char} (hne : moved ≠ []) (hopen : Follows moved mode)
    (hlast : ∀ c, moved.getLast? = some c → isBlank c = false)
    (hr : parse (compose mode moved none) = .ok r) (hmode : r.mode = mode)
    (hmeter : r.hasMeter = true) (hbrackets : brackets moved = brackets r.stem) :
    splitLocation moved = (moved, none) := by
  have hraw : r.raw.toList = mode.sign ++ moved := by
    rw [raw_of_parse hr, String.toList_ofList, compose, String.toList_ofList]
    refine trim_eq_self_of_ends (fun c hc => hopen.isBlank_head hne [] (by simpa using hc)) ?_
    intro c hc
    rw [List.getLast?_append, Option.or_of_isSome (by simpa using hne)] at hc
    exact hlast c hc
  have hsign : brackets mode.sign = [] := by cases mode <;> rfl
  rcases splitLocation_cases (mode.sign ++ moved) with hwhole | ⟨rest, hrest⟩
  · have hnone := splitLocation_eq_self_iff.mp hwhole
    rw [brackets_append, hsign, List.nil_append] at hnone
    exact splitLocation_eq_self_iff.mpr hnone
  · exfalso
    have hcut : (splitLocation (mode.sign ++ moved)).1 = mode.sign ++ r.value.toList := by
      rw [← (body_of_hasMeter hmeter).1, ← hmode, r.sign_append_body, hraw, hmode]
    have hmoved : moved = r.value.toList ++ '<' :: rest := by
      rw [hcut, List.append_assoc] at hrest
      exact List.append_cancel_left hrest
    have hlength := congrArg List.length hbrackets
    rw [hmoved, brackets_append, (showsLevel_value hmeter).brackets_eq] at hlength
    simp [brackets] at hlength

/-- A tag with a level that was put together anew has the identifier it was put together from. -/
theorem value_of_parse_compose {value : List Char} {name : Option String} (hne : value ≠ [])
    (hopen : Follows value mode) (hclose : Closes value name)
    (hr : parse (compose mode value name) = .ok r) (hmode : r.mode = mode)
    (hmeter : r.hasMeter = true) : r.value.toList = value := by
  have hraw : r.raw.toList = (compose mode value name).toList := by
    rw [raw_of_parse hr, String.toList_ofList, trim_compose hne hopen hclose]
  have hbody := r.sign_append_body
  rw [hraw, splitLocation_compose_eq hclose, hmode] at hbody
  rw [← (body_of_hasMeter hmeter).1]
  exact List.append_cancel_left hbody

/-- **When moving a level moves nothing else.** The tag put together anew has the sign and the
location it was given, the moved level, and the stem it had, exactly when the identifier is not
taken for more than an identifier without the sign or the location that it had, and its numeral can
be moved by rewriting it. -/
theorem incremented_moves_iff {step : Int} (hmeter : t.hasMeter = true)
    (hlow : minLevel < t.meter.value + step) (hhigh : t.meter.value + step < maxLevel)
    (hlocation : Named location) :
    (∃ r, t.incremented step location mode = .ok r ∧ r.mode = mode ∧ r.location = location ∧
      r.meter.value = t.meter.value + step ∧ r.stem = t.stem) ↔
    Follows t.value.toList mode ∧
      (location = none → splitLocation t.value.toList = (t.value.toList, none)) ∧
      Movable t.stem t.numeral t.meter.value (t.meter.value + step) := by
  have hclamp : clampLevel (t.meter.value + step) = t.meter.value + step := by
    rw [clampLevel]
    omega
  rw [incremented, hclamp]
  generalize t.meter.value + step = n at hlow hhigh ⊢
  obtain ⟨hstem, hbehind, hvalue, hunmarked, hread⟩ := of_hasMeter_stem hmeter
  have hold := showsLevel_value hmeter
  have hlast : ∀ c, t.value.toList.getLast? = some c → c.isDigit = true := fun c =>
    hold.isDigit_getLast?
  have hmovable := showsLevel_replaceLast_iff hbehind (hvalue ▸ hunmarked) hread
    (Int.le_of_lt hlow) (Int.le_of_lt hhigh)
  rw [← hvalue] at hmovable
  rw [← hmovable]
  have hbrackets := brackets_replaceLast t.meter.value n t.value.toList
  constructor
  · rintro ⟨r, hr, hmode, hplace, rfl, hsame⟩
    have hr_meter : r.hasMeter = true := by
      simp [hasMeter, Meter.hasValue, hlow, hhigh]
    have hshown := showsLevel_value hr_meter
    have hfollows : Follows t.value.toList mode := (hmode ▸ r.follows_value).of_head?_eq
      (by rw [hold.head?_eq hstem, ← hsame, hshown.head?_eq (hsame ▸ hstem)])
    have hopen := hfollows.replaceLast t.meter.value r.meter.value
    have hne := replaceLast_ne_nil t.meter.value r.meter.value t.value_ne_nil
    have hfree : location = none → splitLocation t.value.toList = (t.value.toList, none) := by
      rintro rfl
      have hfree := splitLocation_of_parse hne hopen
        (fun c => isBlank_getLast?_replaceLast hlast _ _) hr hmode hr_meter
        (by rw [hbrackets, hold.brackets_eq, hsame])
      rw [splitLocation_eq_self_iff, hbrackets] at hfree
      exact splitLocation_eq_self_iff.mpr hfree
    have hclose := closes_replaceLast hlocation hfree hlast t.meter.value r.meter.value
    rw [value_of_parse_compose hne hopen hclose hr hmode hr_meter, hsame] at hshown
    exact ⟨hfollows, hfree, hshown⟩
  · rintro ⟨hfollows, hfree, hmoved⟩
    exact exists_parse_of_showsLevel hlocation (hfollows.replaceLast _ _)
      (closes_replaceLast hlocation hfree hlast _ _) hstem hmoved

end Tag

/-! ### A ledger

Coins are counted with zeros in front, and so is a debt, behind its minus sign and behind a number
that belongs to its name. -/

namespace Ledger

def coins : Tag := ⟨"coin.007", ⟨.plain, "coin.007", none, .ofValue 7⟩, by decide, by rfl⟩
def debt : Tag := ⟨"debt-5.-05", ⟨.plain, "debt-5.-05", none, .ofValue (-5)⟩, by decide, by rfl⟩
def other : Tag := ⟨"debt-4.-05", ⟨.plain, "debt-4.-05", none, .ofValue (-5)⟩, by decide, by rfl⟩

end Ledger

open Ledger Tag in
/-- Three coins more are ten, and all that is asked for stands around them. -/
theorem coins_moved :
    coins.hasMeter = true ∧ minLevel < coins.meter.value + 3 ∧ coins.meter.value + 3 < maxLevel ∧
      Named (some "HOME") ∧
      ∃ r, coins.incremented 3 (some "HOME") .required = .ok r ∧ r.mode = .required ∧
        r.location = some "HOME" ∧ r.meter.value = 10 ∧ r.stem = "coin.".toList := by
  have hmeter : coins.hasMeter = true := by decide
  have hlocation : Named (some "HOME") := by
    intro name hname
    cases hname
    exact ⟨by decide, by decide +kernel⟩
  refine ⟨hmeter, by decide, by decide, hlocation, ?_⟩
  exact (incremented_moves_iff hmeter (by decide) (by decide) hlocation).mpr
    ⟨nofun, nofun, .inr (.inl ⟨by decide, by decide⟩)⟩

open Ledger Tag in
/-- One debt less gives the debt another name and leaves the level alone. -/
theorem debt_not_moved :
    debt.hasMeter = true ∧ minLevel < debt.meter.value + 1 ∧ debt.meter.value + 1 < maxLevel ∧
      debt.incremented 1 none .plain = .ok other ∧ other.meter.value = debt.meter.value ∧
      other.stem ≠ debt.stem := by
  exact ⟨by decide, by decide, by decide, by rfl, by decide, by decide⟩

end StoryTape
