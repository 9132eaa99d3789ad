import StoryTape.Tag
import StoryTape.Proofs.Runs
import StoryTape.Proofs.Texts

/-!
# The text of a tag and its parts

A tag is read off its text from the outside in: the location at the end, the sign in front, the
meter behind the identifier. This file inverts the reading. Sign and identifier open the text, so
an identifier holds no character that its tag does not hold, and a text without blanks is read
as it stands.
-/

namespace StoryTape

open Text

/-- A text is its sign followed by the rest. -/
theorem sign_append_splitSign (s : List Char) : (splitSign s).1.sign ++ (splitSign s).2 = s := by
  unfold splitSign
  split <;> rfl

/-- The text before the location opens the text. -/
theorem splitLocation_opens (raw : List Char) : (splitLocation raw).1 <+: raw := by
  unfold splitLocation
  split
  · exact List.prefix_rfl
  · next body rest hopen =>
    split
    · exact List.prefix_rfl
    · exact prefix_of_splitLast hopen

/-- Cutting off a numeral loses nothing. -/
theorem append_splitNumeral (s : List Char) : (splitNumeral s).1 ++ (splitNumeral s).2 = s := by
  have hcut : (s.reverse.dropWhile Char.isDigit).reverse ++
      (s.reverse.takeWhile Char.isDigit).reverse = s := by
    rw [← List.reverse_append, List.takeWhile_append_dropWhile, List.reverse_reverse]
  simp only [splitNumeral]
  split
  · simp
  · split
    · next rest hrest =>
      rw [hrest] at hcut
      simpa using hcut
    · next rest hrest => simpa using hcut

/-- What is in front of a numeral opens the text. -/
theorem splitNumeral_opens {s name numeral : List Char} (h : splitNumeral s = (name, numeral)) :
    name <+: s := by
  have hs := append_splitNumeral s
  rw [h] at hs
  exact ⟨numeral, hs⟩

/-- A numeral behind a text: digits behind a minus sign, which belongs to it, or behind something
else that is no digit. -/
inductive NumeralBehind (name : List Char) : List Char → Prop
  | signed {digits : List Char} (hne : digits ≠ []) (hdigits : ∀ c ∈ digits, c.isDigit = true) :
      NumeralBehind name ('-' :: digits)
  | unsigned {digits : List Char} (hne : digits ≠ []) (hdigits : ∀ c ∈ digits, c.isDigit = true)
      (hlast : ∀ c, name.getLast? = some c → c.isDigit = false ∧ c ≠ '-') :
      NumeralBehind name digits

/-- The digits a text ends with are taken off the other end of the reversed text. -/
theorem takeWhile_dropWhile_digits {digits : List Char} (hdigits : ∀ c ∈ digits, c.isDigit = true)
    (rest : List Char) (hrest : ∀ c, rest.head? = some c → c.isDigit = false) :
    (digits.reverse ++ rest).takeWhile Char.isDigit = digits.reverse ∧
      (digits.reverse ++ rest).dropWhile Char.isDigit = rest := by
  have hall : ∀ c ∈ digits.reverse, c.isDigit = true := fun c hc =>
    hdigits c (List.mem_reverse.mp hc)
  rw [List.takeWhile_append_of_pos hall, List.dropWhile_append_of_pos hall]
  cases rest with
  | nil => simp
  | cons c r => simp [hrest c rfl]

/-- A numeral is cut off as it stands. -/
theorem splitNumeral_append {name numeral : List Char} (h : NumeralBehind name numeral) :
    splitNumeral (name ++ numeral) = (name, numeral) := by
  cases h with
  | signed hne hdigits =>
    rename_i digits
    obtain ⟨htake, hdrop⟩ := takeWhile_dropWhile_digits hdigits ('-' :: name.reverse)
      (by rintro c ⟨⟩; rfl)
    have hreverse : (name ++ '-' :: digits).reverse = digits.reverse ++ '-' :: name.reverse := by
      simp
    simp [splitNumeral, hreverse, htake, hdrop, hne]
  | unsigned hne hdigits hlast =>
    obtain ⟨htake, hdrop⟩ := takeWhile_dropWhile_digits hdigits name.reverse
      fun c hc => (hlast c (by rwa [List.head?_reverse] at hc)).1
    rw [← List.reverse_append] at htake hdrop
    simp only [splitNumeral, htake, hdrop, List.reverse_reverse, List.isEmpty_iff, hne, if_false]
    split
    · next rest hrest =>
      exact absurd rfl (hlast '-' (by rw [← List.head?_reverse, hrest]; rfl)).2
    · rw [List.reverse_reverse]

/-- Whatever is cut off is a numeral. -/
theorem numeralBehind_of_splitNumeral {s name numeral : List Char}
    (h : splitNumeral s = (name, numeral)) (hne : numeral ≠ []) : NumeralBehind name numeral := by
  have hdigits : ∀ c ∈ (s.reverse.takeWhile Char.isDigit).reverse, c.isDigit = true := fun c hc =>
    List.all_eq_true.mp List.all_takeWhile c (List.mem_reverse.mp hc)
  simp only [splitNumeral] at h
  split at h
  · cases h
    exact absurd rfl hne
  · next hsome =>
    rw [List.isEmpty_iff] at hsome
    split at h
    · cases h
      exact .signed hsome hdigits
    · next hminus =>
      cases h
      refine .unsigned hsome hdigits fun c hc => ?_
      rw [List.getLast?_reverse] at hc
      refine ⟨eq_false_of_head?_dropWhile hc, ?_⟩
      rintro rfl
      obtain ⟨r, hr⟩ := List.head?_eq_some_iff.mp hc
      exact hminus r hr

/-- The markers of ranges, steps and bounds. -/
def meterMarkers : List (Char × Char) :=
  [('.', '.'), ('+', '+'), ('-', '-'), ('<', '='), ('>', '=')]

/-- No marker of a meter holds a digit. -/
theorem isDigit_meterMarkers : ∀ m ∈ meterMarkers, m.1.isDigit = false ∧ m.2.isDigit = false := by
  decide

/-- A marker that ends with a minus sign starts with one. -/
theorem eq_minus_of_mem_meterMarkers : ∀ m ∈ meterMarkers, m.2 = '-' → m.1 = '-' := by decide

/-- Whether a text holds no marker of a meter. -/
def Unmarked (s : List Char) : Prop := ∀ m ∈ meterMarkers, ¬ [m.1, m.2] <:+: s

instance (s : List Char) : Decidable (Unmarked s) :=
  decidable_of_iff (meterMarkers.all (fun m => !occurs [m.1, m.2] s) = true) <| by
    simp only [Unmarked, List.all_eq_true, Bool.not_eq_true', ← Bool.not_eq_true, occurs_iff]

/-- A part of a text without markers has none. -/
theorem Unmarked.mono {s t : List Char} (h : Unmarked t) (hst : s <:+: t) : Unmarked s :=
  fun m hm hin => h m hm (hin.trans hst)

/-- The identifier opens what the meter is cut off from, and a level of its own is read from a
text without markers only. -/
theorem splitMeter_eq_ok {tag : String} {body name : List Char} {meter : Meter}
    (h : splitMeter tag body = .ok (name, meter)) :
    name <+: body ∧ (meter.hasValue = true → Unmarked body) := by
  unfold splitMeter at h
  split at h
  · next before after hcut =>
    have hbefore := prefix_of_splitLast hcut
    split at h
    · cases h
      exact ⟨hbefore, nofun⟩
    · split at h
      next name' numeral hnum =>
      have hname := (splitNumeral_opens hnum).trans hbefore
      split at h <;> (cases h; exact ⟨hname, nofun⟩)
  · next hdots =>
    split at h
    · next before after hcut =>
      obtain ⟨step, -, h⟩ := bind_eq_ok_iff.mp h
      cases h
      exact ⟨prefix_of_splitLast hcut, by simp [Meter.hasValue, Meter.ofStep]⟩
    · next hplus =>
      split at h
      · next before after hcut =>
        obtain ⟨step, -, h⟩ := bind_eq_ok_iff.mp h
        split at h
        · cases h
        · cases h
          exact ⟨prefix_of_splitLast hcut, by simp [Meter.hasValue, Meter.ofStep]⟩
      · next hminus =>
        split at h
        · next before after hcut =>
          obtain ⟨high, -, h⟩ := bind_eq_ok_iff.mp h
          cases h
          exact ⟨prefix_of_splitLast hcut, by simp [Meter.hasValue, Meter.atMost]⟩
        · next hlower =>
          split at h
          · next before after hcut =>
            obtain ⟨low, -, h⟩ := bind_eq_ok_iff.mp h
            cases h
            exact ⟨prefix_of_splitLast hcut, by simp [Meter.hasValue, Meter.atLeast]⟩
          · next hgreater =>
            -- All searches for a marker have failed.
            have hunmarked : Unmarked body := by
              have hnone : ∀ {m : List Char}, (∀ cut, splitLast m body ≠ some cut) →
                  ¬ m <:+: body := fun h =>
                splitLast_eq_none_iff.mp (Option.eq_none_iff_forall_ne_some.mpr h)
              simp only [Unmarked, meterMarkers, List.forall_mem_cons, List.not_mem_nil,
                false_implies, implies_true, and_true]
              exact ⟨hnone fun cut => hdots cut.1 cut.2, hnone fun cut => hplus cut.1 cut.2,
                hnone fun cut => hminus cut.1 cut.2, hnone fun cut => hlower cut.1 cut.2,
                hnone fun cut => hgreater cut.1 cut.2⟩
            split at h
            next name' numeral hnum =>
            split at h <;> (cases h; exact ⟨List.prefix_rfl, fun _ => hunmarked⟩)

/-- A text without markers is read as an identifier with a level of its own. -/
theorem splitMeter_of_unmarked {tag : String} {body : List Char} (h : Unmarked body) :
    splitMeter tag body = .ok (body, .ofValue
      (if (splitNumeral body).1 = [] then minLevel
        else (readLevel (splitNumeral body).2).getD minLevel)) := by
  have hcut : ∀ m ∈ meterMarkers, splitLast [m.1, m.2] body = none := fun m hm =>
    splitLast_eq_none_iff.mpr (h m hm)
  simp only [meterMarkers, List.forall_mem_cons] at hcut
  by_cases hempty : (splitNumeral body).1 = [] <;> simp [splitMeter, hcut, hempty]

/-- How the parts of a tag come out of its text. -/
theorem TagParts.read_eq_ok {raw : String} {parts : TagParts}
    (h : TagParts.read raw = .ok parts) :
    ∃ body name, splitLocation raw.toList = (body, parts.location) ∧
      parts.mode = (splitSign body).1 ∧
      splitMeter raw (splitSign body).2 = .ok (name, parts.meter) ∧
      name ≠ [] ∧ parts.value = String.ofList name := by
  unfold TagParts.read at h
  by_cases hempty : raw.toList.isEmpty = true
  · rw [if_pos hempty] at h
    cases h
  · rw [if_neg hempty] at h
    obtain ⟨⟨name, meter⟩, hmeter, h⟩ := bind_eq_ok_iff.mp h
    by_cases hname : name.isEmpty = true
    · simp only [if_pos hname] at h
      cases h
    · simp only [if_neg hname] at h
      obtain rfl := pure_eq_ok_iff.mp h
      exact ⟨(splitLocation raw.toList).1, name, rfl, rfl, hmeter, by simpa using hname, rfl⟩

namespace Tag

/-- Sign and identifier open the text of a tag. -/
theorem sign_append_value_opens (t : Tag) : t.mode.sign ++ t.value.toList <+: t.raw.toList := by
  obtain ⟨body, name, hlocation, hmode, hmeter, _, hvalue⟩ := TagParts.read_eq_ok t.read_raw
  have hbody : body <+: t.raw.toList := by
    have h := splitLocation_opens t.raw.toList
    rwa [hlocation] at h
  have hopen : (splitSign body).1.sign ++ name <+: body := by
    obtain ⟨rest, hrest⟩ := (splitMeter_eq_ok hmeter).1
    refine ⟨rest, ?_⟩
    rw [List.append_assoc, hrest, sign_append_splitSign]
  have hvalue' : t.value.toList = name := by rw [value, hvalue, String.toList_ofList]
  rw [mode, hmode, hvalue']
  exact hopen.trans hbody

/-- A tag whose text holds no blank. -/
def Unspaced (t : Tag) : Prop := ∀ c ∈ t.raw.toList, isBlank c = false

instance (t : Tag) : Decidable t.Unspaced := List.decidableBAll (isBlank · = false) t.raw.toList

/-- The identifier of a tag without blanks is left alone by trimming. -/
theorem Unspaced.trim_value {t : Tag} (h : t.Unspaced) : trim t.value.toList = t.value.toList :=
  trim_eq_self fun c hc =>
    h c (t.sign_append_value_opens.subset (List.mem_append_right _ hc))

/-- A tag that was read has the trimmed text for its own. -/
theorem raw_of_parse {text : String} {t : Tag} (h : parse text = .ok t) :
    t.raw = String.ofList (trim text.toList) := by
  simp only [parse] at h
  split at h
  · cases h
    rfl
  · cases h

/-! ### Tags put together anew -/

/-- What stands between the sign and the location. -/
def body (t : Tag) : List Char := (splitSign (splitLocation t.raw.toList).1).2

/-- Identifier and meter are read from the body. -/
theorem splitMeter_body (t : Tag) : splitMeter t.raw t.body = .ok (t.value.toList, t.meter) := by
  obtain ⟨body, name, hlocation, -, hmeter, -, hvalue⟩ := TagParts.read_eq_ok t.read_raw
  rw [value, hvalue, String.toList_ofList, Tag.body, hlocation]
  exact hmeter

/-- The identifier opens the body of a tag. -/
theorem value_opens_body (t : Tag) : t.value.toList <+: t.body :=
  (splitMeter_eq_ok t.splitMeter_body).1

/-- The name of a location holds no opening bracket, since a tag is cut at its last one. -/
theorem notMem_location {t : Tag} {name : String} (h : t.location = some name) :
    '<' ∉ name.toList := by
  obtain ⟨body, -, hlocation, -⟩ := TagParts.read_eq_ok t.read_raw
  have hname : (splitLocation t.raw.toList).2 = some name := by rw [hlocation]; exact h
  unfold splitLocation at hname
  split at hname
  · cases hname
  · next before rest hopen =>
    split at hname
    · cases hname
    · next inside after hclose =>
      simp only at hname
      split at hname
      · cases hname
      · obtain rfl := Option.some.inj hname
        rw [String.toList_ofList]
        exact fun hmem => notMem_of_splitLast hopen
          ((prefix_of_splitLast hclose).subset ((trim_within inside).subset hmem))

/-- The place that a text in angle brackets names: blanks at its ends do not count, and blanks alone
name none. -/
def place (inside : List Char) : Option String :=
  if (trim inside).isEmpty then none else some (String.ofList (trim inside))

/-- The place at the end of a text is read off. -/
theorem splitLocation_append {inside : List Char} (h : '<' ∉ inside) (before : List Char) :
    splitLocation (before ++ '<' :: (inside ++ ['>'])) = (before, place inside) := by
  have hrest : '<' ∉ inside ++ ['>'] := by simp [h]
  rw [splitLocation, splitLast_append _ hrest]
  simp only
  rw [splitLast_append_self (List.cons_ne_nil '>' [])]
  rfl

/-- The text of a composed tag is cut before its location. -/
theorem splitLocation_compose {value : List Char} {name : String} (hname : '<' ∉ name.toList)
    (mode : TagMode) : (splitLocation (trim (compose mode value (some name)).toList)).1 =
      trimStart (mode.sign ++ value) := by
  have hkeep : ∀ r, trimStart ('<' :: r) = '<' :: r := fun _ => rfl
  have htrim : trim (compose mode value (some name)).toList =
      trimStart (mode.sign ++ value) ++ '<' :: (name.toList ++ ['>']) := by
    have hstart : trimStart (mode.sign ++ value ++ '<' :: (name.toList ++ ['>'])) =
        trimStart (mode.sign ++ value) ++ '<' :: (name.toList ++ ['>']) := by
      rw [trimStart, List.dropWhile_append]
      split
      · next hempty =>
        rw [trimStart, List.isEmpty_iff.mp hempty]
        exact hkeep _
      · rfl
    simp only [compose, String.toList_ofList, List.append_assoc, List.cons_append] at hstart ⊢
    rw [trim, hstart, trimEnd, ← List.cons_append, ← List.append_assoc]
    refine dropEndWhile_append_eq_self _ (List.cons_ne_nil '>' []) fun c hc => ?_
    rw [List.mem_singleton.mp hc]
    rfl
  rw [htrim, splitLocation_append hname]

/-- The body of a tag put together anew comes from its sign and its identifier. -/
theorem body_infix_of_parse {t t' : Tag} {mode : TagMode} {value : List Char}
    (h : parse (compose mode value t.location) = .ok t') : t'.body <:+: mode.sign ++ value := by
  have hsign : t'.body <:+: (splitLocation t'.raw.toList).1 :=
    (List.IsSuffix.isInfix ⟨_, sign_append_splitSign _⟩)
  refine hsign.trans ?_
  rw [raw_of_parse h, String.toList_ofList]
  cases hlocation : t.location with
  | none =>
    refine (splitLocation_opens _).isInfix.trans ((trim_within _).trans ?_)
    simpa only [compose, String.toList_ofList] using List.infix_rfl
  | some name =>
    rw [splitLocation_compose (notMem_location hlocation)]
    exact (List.dropWhile_suffix _).isInfix

end Tag

end StoryTape
