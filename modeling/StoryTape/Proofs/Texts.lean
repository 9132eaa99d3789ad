import Mathlib.Algebra.Group.Nat.Defs
import Mathlib.Data.List.Induction
import StoryTape.Text.Blank
import StoryTape.Text.Hex
import StoryTape.Text.Numeral
import StoryTape.Text.Search

/-!
# Cuts and numerals

What is cut out of a text lies in the text. A cut at the last occurrence of a character is found
again when the parts are put together, and a written count or code point is read back. A character
differs from its small letter only when it is a capital of ASCII. These are the facts about texts
that keys of lines, tags, templates and artifacts rest on.
-/

namespace StoryTape.Text

/-! ### Taking and dropping -/

/-- A text is taken as far as its characters go, up to one that is not to be taken. -/
theorem takeWhile_dropWhile_append {p : Char → Bool} {s rest : List Char}
    (hs : ∀ c ∈ s, p c = true) (hrest : ∀ c, rest.head? = some c → p c = false) :
    (s ++ rest).takeWhile p = s ∧ (s ++ rest).dropWhile p = rest := by
  rw [List.takeWhile_append_of_pos hs, List.dropWhile_append_of_pos hs]
  cases rest with
  | nil => exact ⟨List.append_nil s, rfl⟩
  | cons c rest =>
    have hc : ¬ p c = true := by rw [hrest c rfl]; exact Bool.false_ne_true
    rw [List.takeWhile_cons_of_neg hc, List.dropWhile_cons_of_neg hc]
    exact ⟨List.append_nil s, rfl⟩

/-! ### ASCII case -/

/-- A character is its own lower case unless it is a capital of the alphabet. -/
theorem toLower_eq_or_capital (c : Char) :
    c.toLower = c ∨ ∃ n < 26, c = Char.ofNat ('A'.toNat + n) := by
  unfold Char.toLower
  split
  · next hcapital =>
    obtain ⟨hlow, hhigh⟩ := hcapital
    simp only [ge_iff_le, UInt32.le_iff_toNat_le] at hlow hhigh
    have hA : 'A'.val.toNat = 65 := rfl
    have hZ : 'Z'.val.toNat = 90 := rfl
    have hnumber : c.toNat = c.val.toNat := rfl
    have hfirst : 'A'.toNat = 65 := rfl
    refine .inr ⟨c.toNat - 65, by omega, ?_⟩
    have hsum : 'A'.toNat + (c.toNat - 65) = c.toNat := by omega
    rw [hsum, Char.ofNat_toNat]
  · exact .inl rfl

/-- What is the same for the capitals and their small letters is the same for every character and
its ASCII small letter. -/
theorem apply_toLower {α : Type} (f : Char → α)
    (h : ∀ n < 26, f (Char.ofNat ('A'.toNat + n)).toLower = f (Char.ofNat ('A'.toNat + n)))
    (c : Char) : f c.toLower = f c := by
  rcases toLower_eq_or_capital c with hsame | ⟨n, hn, rfl⟩
  · rw [hsame]
  · exact h n hn

/-! ### Trimming -/

/-- A text without blanks is left alone by trimming. -/
theorem trim_eq_self {s : List Char} (h : ∀ c ∈ s, isBlank c = false) : trim s = s := by
  cases s with
  | nil => rfl
  | cons c r =>
    have hstart : trimStart (c :: r) = c :: r := by simp [trimStart, h c List.mem_cons_self]
    rw [trim, hstart]
    exact dropEndWhile_append_eq_self [] (List.cons_ne_nil c r) h

/-- What trimming leaves lies within the text. -/
theorem trim_within (s : List Char) : trim s <:+: s :=
  (trimEnd_opens (trimStart s)).isInfix.trans (List.dropWhile_suffix _).isInfix

/-- A text without blanks at its ends opens with no blank. -/
theorem isBlank_head?_of_trim {s : List Char} (h : trim s = s) {c : Char} (hc : s.head? = some c) :
    isBlank c = false := by
  obtain ⟨r, rfl⟩ := List.head?_eq_some_iff.mp hc
  obtain ⟨rest, hrest⟩ := trimEnd_opens (trimStart (c :: r))
  rw [trim] at h
  rw [h, List.cons_append] at hrest
  have hhead : (trimStart (c :: r)).head? = some c := by rw [← hrest, List.head?_cons]
  exact eq_false_of_head?_dropWhile hhead

/-! ### Cutting at the first and at the last occurrence -/

/-- The first occurrence of a character stands behind the text without it. -/
theorem splitFirst_append {c : Char} {before : List Char} (h : c ∉ before) (after : List Char) :
    splitFirst [c] (before ++ c :: after) = some (before, after) := by
  induction before with
  | nil => simp [splitFirst]
  | cons d r ih =>
    rw [List.mem_cons, not_or] at h
    simp [splitFirst, h.1, ih h.2]

/-- A marker occurs exactly when it stands somewhere in the text. -/
theorem occurs_iff {m s : List Char} : occurs m s = true ↔ m <:+: s := by
  induction s with
  | nil => cases m <;> simp [occurs, splitFirst]
  | cons c r ih =>
    rw [List.infix_cons_iff, ← ih, ← List.isPrefixOf_iff_prefix, occurs, splitFirst]
    split
    · next h => simp [h]
    · next h => simp [h, occurs]

/-- A text without a character is not split at it. -/
theorem splitFirst_eq_none {c : Char} {s : List Char} (h : c ∉ s) : splitFirst [c] s = none := by
  have hoccurs : occurs [c] s = false := Bool.eq_false_iff.mpr fun hin =>
    h ((occurs_iff.mp hin).subset List.mem_cons_self)
  rwa [occurs, Option.isSome_eq_false_iff, Option.isNone_iff_eq_none] at hoccurs

/-- What stands before the last occurrence of a marker opens the text. -/
theorem prefix_of_splitLast {m s before after : List Char}
    (h : splitLast m s = some (before, after)) : before <+: s :=
  ⟨m ++ after, by rw [eq_append_of_splitLast h, List.append_assoc]⟩

/-- Behind the last marker stands the end of the text. -/
theorem suffix_of_splitLast {m s before after : List Char}
    (h : splitLast m s = some (before, after)) : after <:+ s :=
  ⟨before ++ m, (eq_append_of_splitLast h).symm⟩

/-- A text is cut exactly when the marker occurs in it. -/
theorem splitLast_eq_none_iff {m s : List Char} : splitLast m s = none ↔ ¬ m <:+: s := by
  induction s with
  | nil => cases m <;> simp [splitLast]
  | cons c r ih =>
    rw [List.infix_cons_iff, splitLast]
    cases hr : splitLast m r with
    | some cut =>
      have hin : m <:+: r := Decidable.not_not.mp fun hnot => by simp [ih.mpr hnot] at hr
      simp [hin]
    | none =>
      have hnot : ¬ m <:+: r := ih.mp hr
      by_cases h : m.isPrefixOf (c :: r) = true
      · simp [h, List.isPrefixOf_iff_prefix.mp h]
      · have hopen : ¬ m <+: c :: r := fun hp => h (List.isPrefixOf_iff_prefix.mpr hp)
        simp [h, hnot, hopen]

/-- A text has no last occurrence of a character exactly when it is without the character. -/
theorem splitLast_eq_none_iff_notMem {c : Char} {s : List Char} :
    splitLast [c] s = none ↔ c ∉ s := by
  rw [splitLast_eq_none_iff]
  refine not_congr ⟨fun hin => hin.subset List.mem_cons_self, fun hmem => ?_⟩
  obtain ⟨x, y, rfl⟩ := List.append_of_mem hmem
  exact ⟨x, y, by simp⟩

/-- A text without a character is not split at its last occurrence. -/
theorem splitLast_eq_none {c : Char} {s : List Char} (h : c ∉ s) : splitLast [c] s = none :=
  splitLast_eq_none_iff_notMem.mpr h

/-- The last occurrence of a character stands in front of the text without it. -/
theorem splitLast_append {c : Char} (before : List Char) {after : List Char} (h : c ∉ after) :
    splitLast [c] (before ++ c :: after) = some (before, after) := by
  induction before with
  | nil => simp [splitLast, splitLast_eq_none h]
  | cons d r ih => simp [splitLast, ih]

/-- Nothing follows the last occurrence of a marker that the text ends with. -/
theorem splitLast_append_self {m : List Char} (hm : m ≠ []) (before : List Char) :
    splitLast m (before ++ m) = some (before, []) := by
  induction before with
  | nil =>
    obtain ⟨c, r, rfl⟩ := List.exists_cons_of_ne_nil hm
    have hrest : splitLast (c :: r) r = none :=
      splitLast_eq_none_iff.mpr fun hin => absurd hin.length_le (by simp)
    simp [splitLast, hrest]
  | cons d before ih => rw [List.cons_append, splitLast, ih]

/-- After the last occurrence of a character comes no other one. -/
theorem notMem_of_splitLast {c : Char} {s before after : List Char}
    (h : splitLast [c] s = some (before, after)) : c ∉ after := by
  induction s generalizing before with
  | nil => simp [splitLast] at h
  | cons d r ih =>
    rw [splitLast] at h
    cases hr : splitLast [c] r with
    | some cut =>
      simp only [hr, Option.some.injEq, Prod.mk.injEq] at h
      obtain ⟨-, rfl⟩ := h
      exact ih hr
    | none =>
      have hnot : c ∉ r := splitLast_eq_none_iff_notMem.mp hr
      simp only [hr] at h
      split at h
      · simp only [List.length_singleton, List.drop_one, List.tail_cons, Option.some.injEq,
          Prod.mk.injEq] at h
        exact h.2 ▸ hnot
      · cases h

/-- A text is one piece when it is not cut. -/
theorem splitChar_eq_singleton {c : Char} {s : List Char} (h : c ∉ s) : splitChar c s = [s] := by
  induction s with
  | nil => rfl
  | cons d r ih =>
    rw [splitChar, if_neg (List.ne_of_not_mem_cons h).symm, ih (List.not_mem_of_not_mem_cons h)]
    rfl

/-- There is a piece more than there are cuts. -/
theorem length_splitChar (c : Char) (s : List Char) : (splitChar c s).length = s.count c + 1 := by
  induction s with
  | nil => rfl
  | cons d s ih =>
    by_cases hd : d = c
    · rw [splitChar, if_pos hd, List.length_cons, ih, hd, List.count_cons_self]
    · rw [splitChar, if_neg hd, List.count_cons_of_ne hd, ← ih]
      cases hpieces : splitChar c s with
      | nil => simp [hpieces] at ih
      | cons piece pieces => rfl

/-- A text cut at a character is the pieces before it and the pieces after it. -/
theorem splitChar_append_cons (c : Char) (s t : List Char) :
    splitChar c (s ++ c :: t) = splitChar c s ++ splitChar c t := by
  induction s with
  | nil => simp [splitChar]
  | cons d s ih =>
    rw [List.cons_append, splitChar, splitChar, ih]
    split
    · rfl
    · cases hpieces : splitChar c s with
      | nil =>
        have hlength := length_splitChar c s
        simp [hpieces] at hlength
      | cons piece pieces => rfl

/-- No piece holds the separator. -/
theorem not_mem_of_mem_splitChar {c : Char} {s piece : List Char} (h : piece ∈ splitChar c s) :
    c ∉ piece := by
  induction s generalizing piece with
  | nil =>
    rw [splitChar, List.mem_singleton] at h
    exact h ▸ List.not_mem_nil
  | cons d s ih =>
    rw [splitChar] at h
    split at h
    · rcases List.mem_cons.mp h with rfl | h
      · exact List.not_mem_nil
      · exact ih h
    · next hd =>
      cases hpieces : splitChar c s with
      | nil =>
        have hlength := length_splitChar c s
        simp [hpieces] at hlength
      | cons first rest =>
        rw [hpieces] at h ih
        rcases List.mem_cons.mp h with rfl | h
        · exact List.not_mem_cons_of_ne_of_not_mem (Ne.symm hd) (ih List.mem_cons_self)
        · exact ih (List.mem_cons_of_mem first h)

/-- Texts joined with a separator have one in front of each but the first. -/
theorem join_cons (separator : Char) (text : List Char) (texts : List (List Char)) :
    join [separator] (text :: texts) = text ++ texts.flatMap (separator :: ·) := by
  induction texts generalizing text with
  | nil => simp [join]
  | cons next texts ih => simp [join, ih]

/-- Pieces that were joined are found again when none of them has the separator. -/
theorem splitChar_join {c : Char} {pieces : List (List Char)} (hne : pieces ≠ [])
    (h : ∀ piece ∈ pieces, c ∉ piece) : splitChar c (join [c] pieces) = pieces := by
  induction pieces with
  | nil => exact absurd rfl hne
  | cons piece pieces ih =>
    have hpiece : splitChar c piece = [piece] :=
      splitChar_eq_singleton (h piece List.mem_cons_self)
    cases pieces with
    | nil => exact hpiece
    | cons next rest =>
      have hrest := ih (List.cons_ne_nil next rest) fun p hp => h p (List.mem_cons_of_mem piece hp)
      have hjoin : join [c] (piece :: next :: rest) = piece ++ c :: join [c] (next :: rest) := by
        simp [join]
      rw [hjoin, splitChar_append_cons, hpiece, hrest]
      rfl

/-- Every piece stands in the text it is joined to. -/
theorem infix_join {separator piece : List Char} {pieces : List (List Char)}
    (h : piece ∈ pieces) : piece <:+: join separator pieces := by
  induction pieces with
  | nil => cases h
  | cons first pieces ih =>
    cases pieces with
    | nil => exact (List.mem_singleton.mp h) ▸ List.infix_rfl
    | cons second rest =>
      change piece <:+: first ++ separator ++ join separator (second :: rest)
      rcases List.mem_cons.mp h with rfl | h
      · exact ⟨[], separator ++ join separator (second :: rest), by simp⟩
      · exact (ih h).trans (List.suffix_append _ _).isInfix

/-- A piece of a text lies in the text. -/
theorem infix_of_mem_splitChar {c : Char} {s piece : List Char} (h : piece ∈ splitChar c s) :
    piece <:+: s := by
  have hin : piece <:+: join [c] (splitChar c s) := infix_join h
  rwa [join_splitChar] at hin

/-- The last piece of a text is what follows the last cut. -/
theorem getLast?_splitChar {c : Char} (s : List Char) {t : List Char} (h : c ∉ t) :
    (splitChar c (s ++ c :: t)).getLast? = some t := by
  rw [splitChar_append_cons, splitChar_eq_singleton h, List.getLast?_concat]

/-- The last piece of a text ends like the text, as far as there is no cut. -/
theorem exists_getLast?_splitChar {c : Char} (s : List Char) {t : List Char} (h : c ∉ t) :
    ∃ before, (splitChar c (s ++ t)).getLast? = some (before ++ t) := by
  have hconsPiece (d : Char) {pieces : List (List Char)} {before : List Char}
      (hlast : pieces.getLast? = some (before ++ t)) :
      ∃ before, (consPiece d pieces).getLast? = some (before ++ t) := by
    match pieces with
    | [] => cases hlast
    | [piece] =>
      cases hlast
      exact ⟨d :: before, rfl⟩
    | piece :: piece' :: pieces => exact ⟨before, hlast⟩
  induction s with
  | nil => exact ⟨[], by rw [List.nil_append, splitChar_eq_singleton h]; rfl⟩
  | cons d s ih =>
    obtain ⟨before, ih⟩ := ih
    rw [List.cons_append, splitChar]
    split
    · exact ⟨before, by rw [List.getLast?_cons, ih]; rfl⟩
    · exact hconsPiece d ih

/-- Where two texts meet, two characters stand next to each other. -/
theorem pair_infix_append {a b : Char} {s t : List Char} (h : [a, b] <:+: s ++ t) :
    [a, b] <:+: s ∨ [a, b] <:+: t ∨ s.getLast? = some a ∧ t.head? = some b := by
  rcases List.infix_append_iff_ne_nil.mp h with h | h | ⟨l, r, hl, hr, hlr, hs, ht⟩
  · exact .inl h
  · exact .inr (.inl h)
  · obtain ⟨x, l, rfl⟩ := List.exists_cons_of_ne_nil hl
    obtain ⟨y, r, rfl⟩ := List.exists_cons_of_ne_nil hr
    have hlength := congrArg List.length hlr
    simp only [List.length_cons, List.length_append, List.length_nil] at hlength
    obtain rfl : l = [] := List.length_eq_zero_iff.mp (by omega)
    obtain rfl : r = [] := List.length_eq_zero_iff.mp (by omega)
    simp only [List.cons_append, List.nil_append, List.cons.injEq, and_true] at hlr
    obtain ⟨rfl, rfl⟩ := hlr
    obtain ⟨s, rfl⟩ := hs
    obtain ⟨t, rfl⟩ := ht
    exact .inr (.inr ⟨by simp, by simp⟩)

/-- Replacing a character leaves the others and adds those of the text. -/
theorem mem_replaceChar {c d : Char} {text s : List Char} (h : d ∈ replaceChar c text s) :
    d ∈ text ∨ d ∈ s ∧ d ≠ c := by
  obtain ⟨e, he, hd⟩ := List.mem_flatMap.mp h
  split at hd
  · exact .inl hd
  · next hne =>
    rw [List.mem_singleton] at hd
    exact .inr (hd ▸ ⟨he, hne⟩)

/-- A character is replaced in each of two texts put together. -/
theorem replaceChar_append (c : Char) (text s t : List Char) :
    replaceChar c text (s ++ t) = replaceChar c text s ++ replaceChar c text t :=
  List.flatMap_append

/-- Where a character does not occur it is not replaced. -/
theorem replaceChar_eq_self {c : Char} {s : List Char} (h : c ∉ s) (text : List Char) :
    replaceChar c text s = s := by
  induction s with
  | nil => rfl
  | cons d r ih =>
    rw [List.mem_cons, not_or] at h
    rw [replaceChar, List.flatMap_cons, if_neg (Ne.symm h.1)]
    exact congrArg (d :: ·) (ih h.2)

/-! ### Numerals -/

/-- The digits of a count. -/
theorem isDigit_of_mem_writeCount {n : Nat} {c : Char} (h : c ∈ writeCount n) :
    c.isDigit = true :=
  Nat.isDigit_of_mem_toDigits (by decide) (by decide) h

/-- A count is written with some digit. -/
theorem writeCount_ne_nil (n : Nat) : writeCount n ≠ [] := Nat.toDigits_ne_nil

/-- The digits of a count have its value. -/
theorem digitsValue_writeCount (n : Nat) : digitsValue (writeCount n) = n := by
  rw [digitsValue, ← Nat.ofDigitChars_eq_foldl (b := 10)]
  exact Nat.ofDigitChars_ten_toDigits

/-- The digits of a number are those of a part of it and one more. -/
theorem toDigits_eq_append {b n : Nat} (hb : 1 < b) (h : b ≤ n) :
    Nat.toDigits b n = Nat.toDigits b (n / b) ++ [Nat.digitChar (n % b)] := by
  have hlt : n % b < b := Nat.mod_lt n (by omega)
  have hpos : 0 < n / b := Nat.div_pos h (by omega)
  have hsplit := Nat.toDigits_append_toDigits hb hpos hlt
  rwa [Nat.div_add_mod, Nat.toDigits_of_lt_base hlt, eq_comm] at hsplit

/-- Only zero is written with a zero in front. -/
theorem head?_writeCount {n : Nat} (hn : n ≠ 0) : (writeCount n).head? ≠ some '0' := by
  induction n using Nat.strongRecOn with
  | ind n ih =>
    by_cases hlt : n < 10
    · have hdigit : ∀ d < 10, d ≠ 0 → [Nat.digitChar d].head? ≠ some '0' := by decide
      rw [writeCount, Nat.toDigits_of_lt_base hlt]
      exact hdigit n hlt hn
    · have hdigits : writeCount n = writeCount (n / 10) ++ [Nat.digitChar (n % 10)] :=
        toDigits_eq_append (by decide) (by omega)
      rw [hdigits, List.head?_append, Option.or_of_isSome]
      · exact ih (n / 10) (by omega) (by omega)
      · exact List.isSome_head?.mpr (writeCount_ne_nil _)

/-- A written count is read back, as long as it is a machine word. -/
theorem readCount_writeCount {n : Nat} (h : n < wordSize) : readCount (writeCount n) = some n := by
  have hplus : dropPlus (writeCount n) = writeCount n := by
    unfold dropPlus
    split
    · next s hs =>
      have hmem : '+' ∈ writeCount n := by rw [hs]; exact List.mem_cons_self
      have hdigit := isDigit_of_mem_writeCount hmem
      exact absurd hdigit (by decide)
    · rfl
  have hdigits : readDigits (writeCount n) = some n := by
    have hall : (writeCount n).all Char.isDigit = true :=
      List.all_eq_true.mpr fun c hc => isDigit_of_mem_writeCount hc
    rw [readDigits, if_pos ⟨writeCount_ne_nil n, hall⟩, digitsValue_writeCount]
  rw [readCount, hplus, hdigits, Option.filter_some, if_pos (decide_eq_true h)]

/-- A level is written in digits and a minus sign. -/
theorem isDigit_or_eq_of_mem_writeLevel {n : Int} {c : Char} (h : c ∈ writeLevel n) :
    c.isDigit = true ∨ c = '-' := by
  rw [writeLevel] at h
  split at h
  · rcases List.mem_cons.mp h with rfl | h
    · exact .inr rfl
    · exact .inl (isDigit_of_mem_writeCount h)
  · exact .inl (isDigit_of_mem_writeCount h)

/-- A level that is not negative is written as a count. -/
theorem writeLevel_of_nonneg {n : Int} (h : 0 ≤ n) : writeLevel n = writeCount n.natAbs := by
  rw [writeLevel, if_neg (by omega)]

/-- A negative level is written as a count behind a minus sign. -/
theorem writeLevel_of_neg {n : Int} (h : n < 0) : writeLevel n = '-' :: writeCount n.natAbs := by
  rw [writeLevel, if_pos h]

/-- A written level ends with a digit. -/
theorem isDigit_getLast?_writeLevel {n : Int} {c : Char} (h : (writeLevel n).getLast? = some c) :
    c.isDigit = true := by
  have hcount : ∀ {m : Nat}, (writeCount m).getLast? = some c → c.isDigit = true := fun h =>
    isDigit_of_mem_writeCount (List.mem_of_getLast? h)
  rw [writeLevel] at h
  split at h
  · rw [List.getLast?_cons_of_ne_nil (writeCount_ne_nil _)] at h
    exact hcount h
  · exact hcount h

/-- A level is written with some character. -/
theorem writeLevel_ne_nil (n : Int) : writeLevel n ≠ [] := by
  rw [writeLevel]
  split
  · exact List.cons_ne_nil _ _
  · exact writeCount_ne_nil _

/-- Whatever stands behind another character of a written level is a digit. -/
theorem isDigit_of_pair_infix_writeLevel {n : Int} {a b : Char} (h : [a, b] <:+: writeLevel n) :
    b.isDigit = true := by
  have hb : b ∈ [a, b] := by simp
  rw [writeLevel] at h
  split at h
  · rcases List.infix_cons_iff.mp h with h | h
    · exact isDigit_of_mem_writeCount ((List.cons_prefix_cons.mp h).2.subset (by simp))
    · exact isDigit_of_mem_writeCount (h.subset hb)
  · exact isDigit_of_mem_writeCount (h.subset hb)

/-- A digit is the one of its value. -/
theorem digitChar_of_isDigit {d : Char} (h : d.isDigit = true) :
    d.toNat - '0'.toNat < 10 ∧ Nat.digitChar (d.toNat - '0'.toNat) = d := by
  have hbounds : 48 ≤ d.toNat ∧ d.toNat ≤ 57 := by
    simpa [Char.isDigit, UInt32.le_iff_toNat_le] using h
  have hzero : '0'.toNat = 48 := rfl
  have hlt : d.toNat - '0'.toNat < 10 := by omega
  have hchars : ∀ k < 10, Nat.digitChar k = Char.ofNat (48 + k) := by decide
  refine ⟨hlt, ?_⟩
  rw [hchars _ hlt, show 48 + (d.toNat - '0'.toNat) = d.toNat by omega, Char.ofNat_toNat]

/-- The value of a digit string is written in the digits it ends with, its leading zeros aside. -/
theorem writeCount_digitsValue_suffix {s : List Char} (hs : s ≠ [])
    (h : ∀ c ∈ s, c.isDigit = true) : writeCount (digitsValue s) <:+ s := by
  induction s using List.reverseRecOn with
  | nil => exact absurd rfl hs
  | append_singleton s d ih =>
    obtain ⟨hlt, hchar⟩ := digitChar_of_isDigit (h d (by simp))
    have hlast : Nat.toDigits 10 (d.toNat - '0'.toNat) = [d] := by
      rw [Nat.toDigits_of_lt_base hlt, hchar]
    have hvalue : digitsValue (s ++ [d]) = 10 * digitsValue s + (d.toNat - '0'.toNat) := by
      simp [digitsValue]
    rw [hvalue, writeCount]
    by_cases hzero : digitsValue s = 0
    · rw [hzero, Nat.mul_zero, Nat.zero_add, hlast]
      exact List.suffix_append s [d]
    · rw [← Nat.toDigits_append_toDigits (by decide) (Nat.pos_of_ne_zero hzero) hlt, hlast]
      have hne : s ≠ [] := by
        rintro rfl
        exact hzero rfl
      obtain ⟨zeros, hzeros⟩ := ih hne fun c hc => h c (List.mem_append_left _ hc)
      refine ⟨zeros, ?_⟩
      rw [← List.append_assoc]
      exact congrArg (· ++ [d]) hzeros

/-- A level read from digits is their value. -/
theorem eq_digitsValue_of_readLevel {s : List Char} (h : ∀ c ∈ s, c.isDigit = true) {n : Int}
    (hread : readLevel s = some n) : s ≠ [] ∧ n = digitsValue s := by
  have hne : ∀ c r, s = c :: r → c.isDigit = true := fun c r hs => h c (by simp [hs])
  simp only [readLevel, Option.filter_eq_some_iff] at hread
  obtain ⟨hread, -⟩ := hread
  split at hread
  · exact absurd (hne _ _ rfl) (by decide)
  · have hplus : dropPlus s = s := by
      unfold dropPlus
      split
      · exact absurd (hne _ _ rfl) (by decide)
      · rfl
    obtain ⟨m, hm, rfl⟩ := Option.map_eq_some_iff.mp hread
    rw [hplus, readDigits] at hm
    split at hm
    · next hs => exact ⟨hs.1, by rw [Option.some.inj hm]⟩
    · cases hm

/-- The digits of two strings one after the other. -/
theorem digitsValue_append (s t : List Char) :
    digitsValue (s ++ t) = digitsValue s * 10 ^ t.length + digitsValue t := by
  induction t using List.reverseRecOn with
  | nil => simp [digitsValue]
  | append_singleton t c ih =>
    have hstep : ∀ r : List Char, digitsValue (r ++ [c]) =
        10 * digitsValue r + (c.toNat - '0'.toNat) := fun r => by simp [digitsValue]
    rw [← List.append_assoc, hstep, hstep, ih, List.length_append, List.length_singleton,
      Nat.pow_succ, ← Nat.mul_assoc]
    omega

/-- A digit string on the scale is read as the level of its value. -/
theorem readLevel_of_digits {s : List Char} (hne : s ≠ []) (h : ∀ c ∈ s, c.isDigit = true)
    (hscale : (digitsValue s : Int) ≤ maxLevel) : readLevel s = some (digitsValue s : Int) := by
  have hread : readDigits s = some (digitsValue s) := by
    rw [readDigits, if_pos ⟨hne, List.all_eq_true.mpr h⟩]
  have hlow : minLevel ≤ (digitsValue s : Int) := by
    rw [minLevel]
    omega
  have hdigit : ∀ c r, s = c :: r → c.isDigit = true := fun c r hs => h c (by simp [hs])
  unfold readLevel
  split
  · exact absurd (hdigit _ _ rfl) (by decide)
  · have hplus : dropPlus s = s := by
      unfold dropPlus
      split
      · exact absurd (hdigit _ _ rfl) (by decide)
      · rfl
    simp [hplus, hread, hlow, hscale]

/-- Behind a minus sign as the level below zero. -/
theorem readLevel_of_minus {s : List Char} (hne : s ≠ []) (h : ∀ c ∈ s, c.isDigit = true)
    (hscale : minLevel ≤ -(digitsValue s : Int)) :
    readLevel ('-' :: s) = some (-(digitsValue s : Int)) := by
  have hread : readDigits s = some (digitsValue s) := by
    rw [readDigits, if_pos ⟨hne, List.all_eq_true.mpr h⟩]
  have hhigh : -(digitsValue s : Int) ≤ maxLevel := by
    rw [maxLevel]
    omega
  simp [readLevel, hread, hscale, hhigh]

/-- A level read behind a minus sign is what its digits say, below zero. -/
theorem eq_neg_digitsValue_of_readLevel {s : List Char} {n : Int}
    (hread : readLevel ('-' :: s) = some n) : n = -(digitsValue s : Int) := by
  simp only [readLevel, Option.filter_eq_some_iff] at hread
  obtain ⟨m, hm, rfl⟩ := Option.map_eq_some_iff.mp hread.1
  rw [readDigits] at hm
  split at hm
  · rw [Option.some.inj hm]
  · cases hm

/-! ### Code points -/

/-- A hexadecimal digit has its value. -/
theorem hexValue_digitChar : ∀ d < 16, hexValue (Nat.digitChar d) = some d := by decide

/-- The hexadecimal digits of a number are read as the number. -/
theorem hexNumber_toDigits (n : Nat) : hexNumber (Nat.toDigits 16 n) = some n := by
  induction n using Nat.strongRecOn with
  | ind n ih =>
    by_cases hlt : n < 16
    · rw [Nat.toDigits_of_lt_base hlt, hexNumber]
      simp [hexValue_digitChar n hlt]
    · have hrest := ih (n / 16) (by omega)
      rw [hexNumber] at hrest
      rw [toDigits_eq_append (by decide) (by omega), hexNumber, List.foldlM_append, hrest]
      simp [hexValue_digitChar (n % 16) (by omega), Nat.div_add_mod]

/-- A number is written in hexadecimal digits. -/
theorem exists_of_mem_toDigits {n : Nat} {c : Char} (h : c ∈ Nat.toDigits 16 n) :
    ∃ d < 16, c = Nat.digitChar d := by
  induction n using Nat.strongRecOn with
  | ind n ih =>
    by_cases hlt : n < 16
    · rw [Nat.toDigits_of_lt_base hlt, List.mem_singleton] at h
      exact ⟨n, hlt, h⟩
    · rw [toDigits_eq_append (by decide) (by omega), List.mem_append, List.mem_singleton] at h
      rcases h with h | h
      · exact ih (n / 16) (by omega) h
      · exact ⟨n % 16, by omega, h⟩

/-- A character is the one of its code point. -/
theorem charOf?_toNat (c : Char) : charOf? c.toNat = some c := by
  have hvalid : c.toNat.isValidChar := c.valid
  rw [charOf?, if_pos hvalid, Char.ofNat_toNat]

end StoryTape.Text
