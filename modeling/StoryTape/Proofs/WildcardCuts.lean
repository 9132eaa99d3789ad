import StoryTape.Proofs.Wildcards

/-!
# Where wildcards are cut

An expansion cuts identifiers at byte offsets: at the first star, behind the first dot, before the
last one, and behind what a pool tag has in common with the template. An offset found in one text is
used in another, and the bytes of a character are not to be torn apart, so each cut could miss. Here
the expansion is followed offset by offset. All cuts but one hit; the one behind the first dot
misses exactly where a star stands before every dot of a wildcard without match.
-/

namespace StoryTape

open Text

namespace Text

/-! ### Byte offsets -/

/-- The bytes a text takes up in UTF-8. -/
def byteLength : List Char → Nat
  | [] => 0
  | c :: s => c.utf8Size + byteLength s

/-- A text cut at a byte offset. There is no cut behind its end, nor within a character. -/
def cutAt? : Nat → List Char → Option (List Char × List Char)
  | 0, s => some ([], s)
  | _ + 1, [] => none
  | n + 1, c :: s =>
    if c.utf8Size ≤ n + 1 then
      (cutAt? (n + 1 - c.utf8Size) s).map fun (before, after) => (c :: before, after)
    else none

/-- The byte offset of the first occurrence of a marker. -/
def firstAt? (marker s : List Char) : Option Nat :=
  (splitFirst marker s).map fun (before, _) => byteLength before

/-- The byte offset of the last occurrence of a marker. -/
def lastAt? (marker s : List Char) : Option Nat :=
  (splitLast marker s).map fun (before, _) => byteLength before

/-- An empty text takes up no byte. -/
@[simp] theorem byteLength_nil : byteLength [] = 0 := rfl

/-- A text takes up the bytes of its first character and of the others. -/
@[simp] theorem byteLength_cons (c : Char) (s : List Char) :
    byteLength (c :: s) = c.utf8Size + byteLength s := rfl

/-- Texts put together take up the bytes of both. -/
@[simp] theorem byteLength_append (s t : List Char) :
    byteLength (s ++ t) = byteLength s + byteLength t := by
  induction s with
  | nil => simp
  | cons c s ih => rw [List.cons_append, byteLength_cons, byteLength_cons, ih, Nat.add_assoc]

/-- Characters take up bytes. -/
theorem byteLength_pos_iff {s : List Char} : 0 < byteLength s ↔ 0 < s.length := by
  cases s with
  | nil => simp
  | cons c s =>
    have hc := c.utf8Size_pos
    rw [byteLength_cons, List.length_cons]
    omega

/-- A text put together is cut where its parts meet. -/
theorem cutAt?_byteLength (s t : List Char) : cutAt? (byteLength s) (s ++ t) = some (s, t) := by
  induction s with
  | nil => simp [cutAt?]
  | cons c s ih =>
    have hpos : 0 < byteLength (c :: s) := byteLength_pos_iff.mpr (Nat.succ_pos s.length)
    obtain ⟨n, hn⟩ := Nat.exists_eq_add_one.mpr hpos
    have hrest : n + 1 - c.utf8Size = byteLength s := by
      rw [← hn, byteLength_cons, Nat.add_sub_cancel_left]
    have hfits : c.utf8Size ≤ n + 1 := by
      rw [← hn, byteLength_cons]
      exact Nat.le_add_right _ _
    rw [hn, List.cons_append, cutAt?, if_pos hfits, hrest, ih]
    rfl

/-- There is no cut behind the end of a text. -/
theorem cutAt?_eq_none {n : Nat} {s : List Char} (h : byteLength s < n) : cutAt? n s = none := by
  obtain ⟨n, rfl⟩ := Nat.exists_eq_add_one.mpr (Nat.zero_lt_of_lt h)
  induction s generalizing n with
  | nil => rfl
  | cons c s ih =>
    rw [byteLength_cons] at h
    have hc := c.utf8Size_pos
    rw [cutAt?]
    split
    · obtain ⟨m, hm⟩ : ∃ m, n + 1 - c.utf8Size = m + 1 := ⟨n - c.utf8Size, by omega⟩
      rw [hm, ih m (by omega)]
      rfl
    · rfl

/-- The first occurrence of a character has the bytes before it for an offset. -/
theorem firstAt?_append {c : Char} {before : List Char} (h : c ∉ before) (after : List Char) :
    firstAt? [c] (before ++ c :: after) = some (byteLength before) := by
  rw [firstAt?, splitFirst_append h]
  rfl

/-- The last occurrence of a character has the bytes before it for an offset. -/
theorem lastAt?_append {c : Char} (before : List Char) {after : List Char} (h : c ∉ after) :
    lastAt? [c] (before ++ c :: after) = some (byteLength before) := by
  rw [lastAt?, splitLast_append before h]
  rfl

/-! ### Case and bytes -/

/-- A letter takes up as many bytes in lower case. -/
theorem utf8Size_toLower (c : Char) : c.toLower.utf8Size = c.utf8Size :=
  apply_toLower Char.utf8Size (by decide) c

/-- Texts that differ in case alone have as many characters and as many bytes. -/
theorem lengths_eq_of_fold {s t : List Char} (h : fold s = fold t) :
    s.length = t.length ∧ byteLength s = byteLength t := by
  have hbytes (r : List Char) : byteLength (fold r) = byteLength r := by
    induction r with
    | nil => rfl
    | cons c r ih =>
      rw [fold, List.map_cons, byteLength_cons, byteLength_cons, utf8Size_toLower, ← fold, ih]
  refine ⟨?_, by rw [← hbytes s, h, hbytes]⟩
  have hlength := congrArg List.length h
  rwa [fold, fold, List.length_map, List.length_map] at hlength

/-- Where a text starts with another one, the characters they have in common end at a cut. -/
theorem cutAt?_of_startsWithFold {s head : List Char} (h : startsWithFold s head = true) :
    (byteLength head < byteLength s ↔ head.length < s.length) ∧
      cutAt? (byteLength head) s = some (s.take head.length, s.drop head.length) := by
  have hopen := List.prefix_iff_eq_take.mp (List.isPrefixOf_iff_prefix.mp h)
  rw [fold, fold, List.length_map, ← List.map_take] at hopen
  obtain ⟨hlength, hbytes⟩ := lengths_eq_of_fold hopen
  have hcut := cutAt?_byteLength (s.take head.length) (s.drop head.length)
  have hsum := byteLength_append (s.take head.length) (s.drop head.length)
  rw [List.take_append_drop, ← hbytes] at hcut hsum
  refine ⟨?_, hcut⟩
  have hrest := byteLength_pos_iff (s := s.drop head.length)
  rw [List.length_drop] at hrest
  omega

/-- Where it ends with another one, they begin at a cut. -/
theorem cutAt?_of_endsWithFold {s tail : List Char} (h : endsWithFold s tail = true) :
    (byteLength tail < byteLength s ↔ tail.length < s.length) ∧
      cutAt? (byteLength s - byteLength tail) s =
        some (s.take (s.length - tail.length), s.drop (s.length - tail.length)) := by
  have hclose := List.suffix_iff_eq_drop.mp (List.isSuffixOf_iff_suffix.mp h)
  rw [fold, fold, List.length_map, List.length_map, ← List.map_drop] at hclose
  obtain ⟨hlength, hbytes⟩ := lengths_eq_of_fold hclose
  have hcut := cutAt?_byteLength (s.take (s.length - tail.length)) (s.drop (s.length - tail.length))
  have hsum := byteLength_append (s.take (s.length - tail.length)) (s.drop (s.length - tail.length))
  rw [List.take_append_drop] at hcut hsum
  rw [← hbytes] at hsum
  have hrest := byteLength_pos_iff (s := s.take (s.length - tail.length))
  rw [List.length_take] at hrest
  refine ⟨by omega, ?_⟩
  rwa [hsum, Nat.add_sub_cancel_right]

end Text

/-! ### The expansion by offsets -/

/-- Why an expansion that cuts at offsets has no result. -/
inductive CutFault where
  /-- An offset is behind the end of the text to be cut, or within a character. -/
  | outOfBounds
  /-- A tag that was put together anew cannot be read. -/
  | script (error : ScriptError)

/-- The same fault of the expansion of a template. -/
def CutFault.ofTemplate (template : String) : CutFault → ExpansionFault
  | .outOfBounds => .starBeforeDot template
  | .script error => .script error

/-- Results of expansions that cut at offsets. -/
abbrev Cutting (α : Type) := Except CutFault α

/-- A text cut at a byte offset, which has to be there. -/
def cutAt (n : Nat) (s : List Char) : Cutting (List Char × List Char) :=
  (cutAt? n s).elim (.error .outOfBounds) .ok

/-- A checked result as the result of an expansion that cuts at offsets. -/
def Checked.toCutting {α : Type} (r : Checked α) : Cutting α := r.mapError .script

/-- The wildcard in an identifier, cut before and behind its first star. -/
def Wildcard.cutValue (value : List Char) : Cutting (Option Wildcard) := do
  let inner := occurs ['.', '*', '.'] value
  let hasHead := inner || ['.', '*'].isSuffixOf value
  let hasTail := inner || ['*', '.'].isPrefixOf value
  if !hasHead && !hasTail then return none
  let some star := firstAt? ['*'] value | return none
  let head ← if hasHead then (some ∘ Prod.fst) <$> cutAt star value else pure none
  let tail ← if hasTail then (some ∘ Prod.snd) <$> cutAt (star + 1) value else pure none
  return some ⟨head, tail⟩

namespace Tag

/-- The second try for `a.b.*`: the head is cut behind the first dot of the whole identifier, and
pool identifiers behind what is left of it. -/
def cutDroppingFirst (t : Tag) (head : List Char) (firstDot : Nat) (pool : List Tag) :
    Cutting (List Tag) := do
  let (_, rest) ← cutAt (firstDot + 1) head
  (pool.filter fun tag =>
      startsWithFold tag.value.toList rest && byteLength rest < byteLength tag.value.toList).mapM
    fun tag => do
      let (_, fill) ← cutAt (byteLength rest) tag.value.toList
      (t.fillStars fill).toCutting

/-- The second try for `*.a.b`: the tail is cut before its own last dot, and pool identifiers before
what is left of it. -/
def cutDroppingLast (t : Tag) (tail : List Char) (pool : List Tag) : Cutting (List Tag) := do
  let some lastDot := lastAt? ['.'] tail | return []
  let (rest, _) ← cutAt lastDot tail
  (pool.filter fun tag =>
      endsWithFold tag.value.toList rest && byteLength rest < byteLength tag.value.toList).mapM
    fun tag => do
      let (fill, _) ← cutAt (byteLength tag.value.toList - byteLength rest) tag.value.toList
      (t.fillStars fill).toCutting

/-- The pool tags a wildcard matches; failing these, the second try for identifiers whose first dot
is not their last. -/
def cutWildcard (t : Tag) (w : Wildcard) (pool : List Tag) : Cutting (List Tag) := do
  let found ← (pool.filter (w.matchesValue ·.value.toList)).mapM fun tag =>
    (tag.relocated t.location t.mode).toCutting
  if !found.isEmpty then return found
  let some firstDot := firstAt? ['.'] t.value.toList | return []
  let some lastDot := lastAt? ['.'] t.value.toList | return []
  if lastDot ≤ firstDot then return []
  match w.head, w.tail with
  | some head, none => t.cutDroppingFirst head firstDot pool
  | none, some tail => t.cutDroppingLast tail pool
  | _, _ => return []

/-- This tag with its level moved: the identifier is cut before and behind its last occurrence. -/
def cutIncremented (t : Tag) (step : Int) (location : Option String) (mode : TagMode) :
    Cutting Tag := do
  let old := writeLevel t.meter.value
  let new := writeLevel (clampLevel (t.meter.value + step))
  let value ← match lastAt? old t.value.toList with
    | none => pure t.value.toList
    | some found => do
      let (before, _) ← cutAt found t.value.toList
      let (_, after) ← cutAt (found + byteLength old) t.value.toList
      pure (before ++ new ++ after)
  (parse (compose mode value location)).toCutting

/-- The concrete tags a tag stands for within a pool, found by cutting at byte offsets. -/
def cutExpand (t : Tag) (pool : List Tag) : Cutting (List Tag) := do
  if !t.isTemplate then return [t]
  if let some w ← Wildcard.cutValue t.value.toList then return ← t.cutWildcard w pool
  if t.isIncrement || t.isDecrement then
    return ← (pool.filter fun tag =>
        startsWithFold tag.value.toList t.value.toList && tag.hasMeter).mapM
      fun tag => tag.cutIncremented t.meter.step t.location t.mode
  if t.isGreater then return t.admitted pool (t.meter.low ≤ ·)
  if t.isLower then return t.admitted pool (· ≤ t.meter.high)
  if t.isRange then return t.admitted pool fun v => t.meter.low ≤ v && v ≤ t.meter.high
  if t.meter = .unset then return t.admitted pool fun _ => true
  return [t]

end Tag

/-! ### Faults carried over -/

section MapError

variable {ε ε' α β : Type}

/-- Changing the errors of runs one after the other is changing those of each. -/
theorem mapError_bind (g : ε → ε') (x : Except ε α) (f : α → Except ε β) :
    (x >>= f).mapError g = x.mapError g >>= fun a => (f a).mapError g := by
  cases x <;> rfl

/-- A run over chosen elements that meets the same faults, up to their names, has the same
result. -/
theorem mapError_filter_mapM {g : ε → ε'} {f : α → Except ε β} {f' : α → Except ε' β}
    {p q : α → Bool} (hpq : ∀ a, p a = q a) (hf : ∀ a, q a = true → (f a).mapError g = f' a)
    (xs : List α) : ((xs.filter p).mapM f).mapError g = (xs.filter q).mapM f' := by
  obtain rfl : p = q := funext hpq
  induction xs with
  | nil => rfl
  | cons a xs ih =>
    by_cases hp : p a = true
    · simp only [List.filter_cons_of_pos hp, List.mapM_cons, mapError_bind, ih, hf a hp]
      rfl
    · simpa only [List.filter_cons_of_neg hp] using ih

end MapError

/-- A checked result is the same whichever way it is expanded. -/
theorem mapError_toCutting {α : Type} (template : String) (r : Checked α) :
    r.toCutting.mapError (CutFault.ofTemplate template) = r.toExpanded := by
  cases r <;> rfl

/-- A text is cut where its first part ends. -/
theorem cutAt_byteLength (s t : List Char) : cutAt (byteLength s) (s ++ t) = .ok (s, t) := by
  rw [cutAt, cutAt?_byteLength]
  rfl

/-- A cut behind a character of one byte. -/
theorem cutAt_byteLength_add_one {c : Char} (hc : c.utf8Size = 1) (s t : List Char) :
    cutAt (byteLength s + 1) (s ++ c :: t) = .ok (s ++ [c], t) := by
  have hcut := cutAt_byteLength (s ++ [c]) t
  rwa [byteLength_append, byteLength_cons, byteLength_nil, hc, List.append_assoc] at hcut

/-- The cuts at the first star of an identifier hit. -/
theorem Wildcard.cutValue_eq (value : List Char) :
    Wildcard.cutValue value = .ok (Wildcard.ofValue? value) := by
  simp only [Wildcard.cutValue, Wildcard.ofValue?]
  generalize (occurs ['.', '*', '.'] value || ['.', '*'].isSuffixOf value) = hasHead
  generalize (occurs ['.', '*', '.'] value || ['*', '.'].isPrefixOf value) = hasTail
  by_cases hstar : '*' ∈ value
  · obtain ⟨before, after, rfl, hbefore⟩ := List.eq_append_cons_of_mem hstar
    have hcut := cutAt_byteLength before ('*' :: after)
    have hbehind := cutAt_byteLength_add_one (c := '*') rfl before after
    rw [firstAt?_append hbefore, splitFirst_append hbefore]
    cases hasHead <;> cases hasTail <;>
      simp [hcut, hbehind, Bind.bind, Except.bind, Pure.pure, Except.pure, Functor.map, Except.map]
  · rw [firstAt?, splitFirst_eq_none hstar]
    cases hasHead <;> cases hasTail <;> rfl

namespace Tag

/-- Moving a level cuts around what was found. -/
theorem cutIncremented_eq (t : Tag) (step : Int) (location : Option String) (mode : TagMode) :
    t.cutIncremented step location mode = (t.incremented step location mode).toCutting := by
  simp only [cutIncremented, incremented, replaceLast, lastAt?]
  generalize writeLevel t.meter.value = old
  generalize writeLevel (clampLevel (t.meter.value + step)) = new
  cases hcut : splitLast old t.value.toList with
  | none => simp only [Option.map_none, Bind.bind, Except.bind, Pure.pure, Except.pure]
  | some cut =>
    obtain ⟨before, after⟩ := cut
    have hvalue := eq_append_of_splitLast hcut
    have hbefore := cutAt_byteLength before (old ++ after)
    have hbehind := cutAt_byteLength (before ++ old) after
    rw [byteLength_append] at hbehind
    rw [← List.append_assoc] at hbefore
    simp only [hvalue, Option.map_some, hbefore, hbehind, Bind.bind, Except.bind, Pure.pure,
      Except.pure]

/-- With a dot in front of the star, the second try cuts where it says; without one the cut behind
the first dot of the identifier is behind the end of the head. -/
theorem cutDroppingFirst_eq (t : Tag) (head after : List Char) (pool : List Tag) {firstDot : Nat}
    (hfirst : firstAt? ['.'] (head ++ '*' :: after) = some firstDot) :
    (t.cutDroppingFirst head firstDot pool).mapError (CutFault.ofTemplate t.raw) =
      t.expandDroppingFirst head pool := by
  by_cases hdot : '.' ∈ head
  · obtain ⟨first, rest, rfl, hdotless⟩ := List.eq_append_cons_of_mem hdot
    rw [List.append_assoc, List.cons_append, firstAt?_append hdotless] at hfirst
    obtain rfl := Option.some.inj hfirst
    have hlonger (p : Tag) : (startsWithFold p.value.toList rest &&
        decide (byteLength rest < byteLength p.value.toList)) =
          (startsWithFold p.value.toList rest &&
            decide (rest.length < p.value.toList.length)) := by
      by_cases hstarts : startsWithFold p.value.toList rest = true
      · simp [(cutAt?_of_startsWithFold hstarts).1]
      · simp [hstarts]
    rw [cutDroppingFirst, cutAt_byteLength_add_one rfl, expandDroppingFirst,
      splitFirst_append hdotless]
    refine mapError_filter_mapM hlonger (fun p hp => ?_) pool
    have hstarts := (Bool.and_eq_true_iff.mp hp).1
    simp only [cutAt, (cutAt?_of_startsWithFold hstarts).2, Option.elim_some, Bind.bind,
      Except.bind, mapError_toCutting]
  · rw [cutDroppingFirst, expandDroppingFirst, splitFirst_eq_none hdot]
    -- The first dot stands behind the star, so the cut is behind the end of the head.
    have hbehind : byteLength head < firstDot + 1 := by
      have hmem : '.' ∈ head ++ '*' :: after := by
        by_contra hnone
        rw [firstAt?, splitFirst_eq_none hnone] at hfirst
        cases hfirst
      have hafter : '.' ∈ after := by simpa [hdot] using hmem
      obtain ⟨x, y, rfl, hx⟩ := List.eq_append_cons_of_mem hafter
      have hdotless : '.' ∉ head ++ '*' :: x := by simp [hdot, hx]
      rw [← List.cons_append, ← List.append_assoc, firstAt?_append hdotless,
        byteLength_append] at hfirst
      have hsum := Option.some.inj hfirst
      omega
    rw [cutAt, cutAt?_eq_none hbehind]
    rfl

/-- The second try at the other end always cuts where it says. -/
theorem cutDroppingLast_eq (t : Tag) (tail : List Char) (pool : List Tag) :
    (t.cutDroppingLast tail pool).mapError (CutFault.ofTemplate t.raw) =
      t.expandDroppingLast tail pool := by
  cases hcut : splitLast ['.'] tail with
  | none =>
    rw [cutDroppingLast, expandDroppingLast, lastAt?, hcut]
    rfl
  | some cut =>
    obtain ⟨rest, last⟩ := cut
    have htail := eq_append_of_splitLast hcut
    have hlonger (p : Tag) : (endsWithFold p.value.toList rest &&
        decide (byteLength rest < byteLength p.value.toList)) =
          (endsWithFold p.value.toList rest &&
            decide (rest.length < p.value.toList.length)) := by
      by_cases hends : endsWithFold p.value.toList rest = true
      · simp [(cutAt?_of_endsWithFold hends).1]
      · simp [hends]
    have hrest : cutAt (byteLength rest) tail = .ok (rest, '.' :: last) := by
      rw [htail, List.append_assoc]
      exact cutAt_byteLength rest _
    rw [cutDroppingLast, expandDroppingLast, lastAt?, hcut]
    simp only [Option.map_some, hrest]
    refine mapError_filter_mapM hlonger (fun p hp => ?_) pool
    have hends := (Bool.and_eq_true_iff.mp hp).1
    simp only [cutAt, (cutAt?_of_endsWithFold hends).2, Option.elim_some, Bind.bind,
      Except.bind, mapError_toCutting]

/-- The first dot of a text is not its last exactly when there are two. -/
theorem dots_cases (s : List Char) :
    (firstAt? ['.'] s = none ∧ s.count '.' = 0) ∨
      (∃ dot, firstAt? ['.'] s = some dot ∧ lastAt? ['.'] s = some dot ∧ s.count '.' = 1) ∨
      ∃ first last, firstAt? ['.'] s = some first ∧ lastAt? ['.'] s = some last ∧ first < last ∧
        2 ≤ s.count '.' := by
  cases hcut : splitLast ['.'] s with
  | none =>
    have hdot := splitLast_eq_none_iff_notMem.mp hcut
    exact .inl ⟨by rw [firstAt?, splitFirst_eq_none hdot]; rfl, List.count_eq_zero.mpr hdot⟩
  | some cut =>
    obtain ⟨before, after⟩ := cut
    have hafter := notMem_of_splitLast hcut
    obtain rfl : s = before ++ '.' :: after := by simpa using eq_append_of_splitLast hcut
    have hlast := lastAt?_append before hafter
    have hcount : (before ++ '.' :: after).count '.' = before.count '.' + 1 := by
      rw [List.count_append, List.count_cons_self, List.count_eq_zero.mpr hafter]
    by_cases hdot : '.' ∈ before
    · obtain ⟨first, middle, rfl, hfirst⟩ := List.eq_append_cons_of_mem hdot
      have hpos := List.count_pos_iff.mpr hdot
      refine .inr (.inr ⟨byteLength first, _, ?_, hlast, ?_, by omega⟩)
      · rw [List.append_assoc, List.cons_append, firstAt?_append hfirst]
      · have hsize := ('.').utf8Size_pos
        rw [byteLength_append, byteLength_cons]
        omega
    · rw [List.count_eq_zero.mpr hdot] at hcount
      exact .inr (.inl ⟨_, firstAt?_append hdot after, hlast, hcount⟩)

/-- A wildcard that was cut out of an identifier is looked up alike. -/
theorem cutWildcard_eq (t : Tag) {w : Wildcard} (pool : List Tag)
    (hw : ∀ head, w.head = some head → ∃ after, t.value.toList = head ++ '*' :: after) :
    (t.cutWildcard w pool).mapError (CutFault.ofTemplate t.raw) = t.expandWildcard w pool := by
  rw [cutWildcard, expandWildcard, mapError_bind]
  congr 1
  · exact mapError_filter_mapM (fun _ => rfl) (fun _ _ => mapError_toCutting t.raw _) pool
  · funext found
    split
    · rfl
    rcases dots_cases t.value.toList with ⟨hfirst, hcount⟩ | ⟨dot, hfirst, hlast, hcount⟩ |
      ⟨first, last, hfirst, hlast, hlt, hcount⟩
    · rw [hfirst, if_pos (by omega)]
      rfl
    · simp only [hfirst, hlast, Nat.le_refl, if_true]
      rw [if_pos (by omega)]
      rfl
    · simp only [hfirst, hlast, if_neg (Nat.not_le.mpr hlt), if_neg (Nat.not_lt.mpr hcount)]
      cases hhead : w.head with
      | none =>
        cases w.tail with
        | none => rfl
        | some tail => exact cutDroppingLast_eq t tail pool
      | some head =>
        cases w.tail with
        | none =>
          obtain ⟨after, hvalue⟩ := hw head hhead
          exact cutDroppingFirst_eq t head after pool (hvalue ▸ hfirst)
        | some tail => rfl

/-- What a wildcard holds are the texts around the first star. -/
theorem ofValue?_append {before : List Char} (hbefore : '*' ∉ before) (after : List Char) :
    Wildcard.ofValue? (before ++ '*' :: after) =
      let inner := occurs ['.', '*', '.'] (before ++ '*' :: after)
      let hasHead := inner || ['.', '*'].isSuffixOf (before ++ '*' :: after)
      let hasTail := inner || ['*', '.'].isPrefixOf (before ++ '*' :: after)
      if hasHead || hasTail then
        some ⟨if hasHead then some before else none, if hasTail then some after else none⟩
      else none := by
  simp only [Wildcard.ofValue?, splitFirst_append hbefore, Option.map_some]

/-- The head of a wildcard stands before its star. -/
theorem exists_of_ofValue?_head {value head : List Char} {w : Wildcard}
    (hwild : Wildcard.ofValue? value = some w) (hhead : w.head = some head) :
    ∃ after, value = head ++ '*' :: after := by
  by_cases hstar : '*' ∈ value
  · obtain ⟨before, after, rfl, hbefore⟩ := List.eq_append_cons_of_mem hstar
    simp only [ofValue?_append hbefore, Option.ite_none_right_eq_some] at hwild
    obtain ⟨-, hw⟩ := hwild
    obtain rfl := Option.some.inj hw
    simp only [Option.ite_none_right_eq_some, Option.some.injEq] at hhead
    exact ⟨after, by rw [hhead.2]⟩
  · rw [ofValue?_eq_none hstar] at hwild
    cases hwild

/-- The expansion cuts where it says it does, and its one cut that can miss does so where no segment
is left to drop. -/
theorem cutExpand_eq (t : Tag) (pool : List Tag) :
    (t.cutExpand pool).mapError (CutFault.ofTemplate t.raw) = t.expand pool := by
  unfold cutExpand expand
  rw [Wildcard.cutValue_eq]
  split
  · rfl
  cases hwild : Wildcard.ofValue? t.value.toList with
  | some w =>
    exact cutWildcard_eq t pool fun _ => exists_of_ofValue?_head hwild
  | none =>
    simp only [Bind.bind, Except.bind]
    split
    · refine mapError_filter_mapM (fun _ => rfl) (fun p _ => ?_) pool
      rw [cutIncremented_eq, mapError_toCutting]
    · split_ifs <;> rfl

/-! ### The cut that misses -/

/-- The identifier of a wildcard whose second try has nothing to drop, with a pool that makes it
necessary: it is of the form `a.*` and not of the others, a star stands before both of its dots or
more, and no identifier in the pool starts with what stands before that star. -/
structure Overruns (value : List Char) (pool : List Tag) : Prop where
  ends_open : ['.', '*'] <:+ value
  not_opened : ¬ ['*', '.'] <+: value
  not_inner : ¬ ['.', '*', '.'] <:+: value
  two_dots : 2 ≤ value.count '.'
  star_first : value.idxOf '*' < value.idxOf '.'
  unmatched : ∀ p ∈ pool,
    startsWithFold p.value.toList (value.takeWhile (· ≠ '*')) = false

/-- A result there is, or the error of a text that was read as a tag. -/
def Settled (r : Expanded (List Tag)) : Prop :=
  (∃ found, r = .ok found) ∨ ∃ text e, parse text = .error e ∧ r = .error (.script e)

/-- A result is there. -/
theorem settled_ok (found : List Tag) : Settled (.ok found) := .inl ⟨found, rfl⟩

/-- Tags that are read one after the other leave a result or the first error. -/
theorem settled_mapM {α : Type} (text : α → String) (xs : List α) :
    Settled (xs.mapM fun a => (parse (text a)).toExpanded) := by
  cases hrun : xs.mapM fun a => (parse (text a)).toExpanded with
  | ok found => exact settled_ok found
  | error fault =>
    obtain ⟨a, -, ha⟩ := exists_of_mapM_error hrun
    cases hparse : parse (text a) with
    | ok t =>
      rw [hparse] at ha
      cases ha
    | error e =>
      rw [hparse] at ha
      cases ha
      exact .inr ⟨text a, e, hparse, rfl⟩

/-- The second try for `*.a.b` leaves a result or an error of reading. -/
theorem settled_expandDroppingLast (t : Tag) (tail : List Char) (pool : List Tag) :
    Settled (t.expandDroppingLast tail pool) := by
  rw [expandDroppingLast]
  split
  · exact settled_ok []
  · exact settled_mapM _ _

/-- The second try for `a.b.*` does so too, as its head has a dot to cut behind. -/
theorem settled_expandDroppingFirst (t : Tag) {head : List Char} (hdot : '.' ∈ head)
    (pool : List Tag) : Settled (t.expandDroppingFirst head pool) := by
  rw [expandDroppingFirst_eq t hdot]
  exact settled_mapM _ _

/-- With a match there is no second try. -/
theorem settled_expandWildcard_of_match (t : Tag) {w : Wildcard} {pool : List Tag} {p : Tag}
    (hp : p ∈ pool) (hmatch : w.matchesValue p.value.toList = true) :
    Settled (t.expandWildcard w pool) := by
  have hfilter : p ∈ pool.filter (w.matchesValue ·.value.toList) := List.mem_filter.mpr ⟨hp, hmatch⟩
  have hfound : Settled ((pool.filter (w.matchesValue ·.value.toList)).mapM fun p =>
      (p.relocated t.location t.mode).toExpanded) := settled_mapM _ _
  rw [expandWildcard]
  rcases hfound with ⟨found, hfound⟩ | ⟨text, e, hparse, hfound⟩
  · obtain ⟨r, hr, -⟩ := exists_mem_of_mapM_ok hfound hfilter
    have hsome : found.isEmpty = false := List.isEmpty_eq_false_iff.mpr (List.ne_nil_of_mem hr)
    rw [hfound]
    simp only [Bind.bind, Except.bind, hsome, Bool.not_false, if_true]
    exact settled_ok found
  · rw [hfound]
    exact .inr ⟨text, e, hparse, rfl⟩

/-- Without one it is all there is. -/
theorem expandWildcard_of_unmatched (t : Tag) {w : Wildcard} {pool : List Tag}
    (h : ∀ p ∈ pool, w.matchesValue p.value.toList = false) :
    t.expandWildcard w pool =
      if t.value.toList.count '.' < 2 then .ok []
      else match w.head, w.tail with
        | some head, none => t.expandDroppingFirst head pool
        | none, some tail => t.expandDroppingLast tail pool
        | _, _ => .ok [] := by
  have hnone : pool.filter (w.matchesValue ·.value.toList) = [] :=
    List.filter_eq_nil_iff.mpr fun p hp => Bool.eq_false_iff.mp (h p hp)
  rw [expandWildcard, hnone]
  rfl

/-- The second try of a wildcard is made for its head alone and has nothing to drop. -/
def Misses (t : Tag) (w : Wildcard) (pool : List Tag) : Prop :=
  ∃ head, w = ⟨some head, none⟩ ∧ '.' ∉ head ∧ 2 ≤ t.value.toList.count '.' ∧
    ∀ p ∈ pool, startsWithFold p.value.toList head = false

/-- A wildcard misses its cut or settles. -/
theorem expandWildcard_cases (t : Tag) (w : Wildcard) (pool : List Tag) :
    (t.Misses w pool ∧ t.expandWildcard w pool = .error (.starBeforeDot t.raw)) ∨
      (¬ t.Misses w pool ∧ Settled (t.expandWildcard w pool)) := by
  by_cases hmatch : ∃ p ∈ pool, w.matchesValue p.value.toList = true
  · obtain ⟨p, hp, hmatch⟩ := hmatch
    refine .inr ⟨?_, t.settled_expandWildcard_of_match hp hmatch⟩
    rintro ⟨head, rfl, -, -, hunmatched⟩
    simp [Wildcard.matchesValue, hunmatched p hp] at hmatch
  have hnone : ∀ p ∈ pool, w.matchesValue p.value.toList = false := fun p hp =>
    Bool.eq_false_iff.mpr fun h => hmatch ⟨p, hp, h⟩
  rw [t.expandWildcard_of_unmatched hnone]
  split
  · next hfew =>
    refine .inr ⟨?_, settled_ok []⟩
    rintro ⟨head, -, -, htwo, -⟩
    omega
  next hmany =>
  obtain ⟨head, tail⟩ := w
  cases head with
  | none =>
    refine .inr ⟨by simp [Misses], ?_⟩
    cases tail with
    | none => exact settled_ok []
    | some tail => exact t.settled_expandDroppingLast tail pool
  | some head =>
    cases tail with
    | some tail => exact .inr ⟨by simp [Misses], settled_ok []⟩
    | none =>
      by_cases hdot : '.' ∈ head
      · exact .inr ⟨by simp [Misses, hdot], t.settled_expandDroppingFirst hdot pool⟩
      -- A head without a dot has nothing that could be dropped.
      · have hunmatched : ∀ p ∈ pool, startsWithFold p.value.toList head = false := by
          simpa [Wildcard.matchesValue] using hnone
        refine .inl ⟨⟨head, rfl, hdot, Nat.not_lt.mp hmany, hunmatched⟩, ?_⟩
        dsimp only
        rw [expandDroppingFirst, splitFirst_eq_none hdot]

/-- Where a wildcard stands, it overruns exactly when only its head counts, the head has no dot and
nothing starts with it. -/
theorem overruns_append_iff {before : List Char} (hbefore : '*' ∉ before) (after : List Char)
    (pool : List Tag) :
    Overruns (before ++ '*' :: after) pool ↔
      Wildcard.ofValue? (before ++ '*' :: after) = some ⟨some before, none⟩ ∧ '.' ∉ before ∧
        2 ≤ (before ++ '*' :: after).count '.' ∧
        ∀ p ∈ pool, startsWithFold p.value.toList before = false := by
  have hopen : (before ++ '*' :: after).takeWhile (· ≠ '*') = before := by
    rw [List.takeWhile_append_of_pos fun c hc =>
      decide_eq_true (ne_of_mem_of_not_mem hc hbefore)]
    simp
  have hfirst : (before ++ '*' :: after).idxOf '*' < (before ++ '*' :: after).idxOf '.' ↔
      '.' ∉ before := by
    rw [List.idxOf_append_of_notMem hbefore, List.idxOf_cons_self, Nat.add_zero]
    by_cases hdot : '.' ∈ before
    · rw [List.idxOf_append_of_mem hdot]
      simp [hdot, List.idxOf_lt_length_of_mem hdot, Nat.le_of_lt]
    · rw [List.idxOf_append_of_notMem hdot, List.idxOf_cons_ne _ (by decide)]
      simp [hdot]
  have hwild : Wildcard.ofValue? (before ++ '*' :: after) = some ⟨some before, none⟩ ↔
      ['.', '*'] <:+ before ++ '*' :: after ∧ ¬ ['*', '.'] <+: before ++ '*' :: after ∧
        ¬ ['.', '*', '.'] <:+: before ++ '*' :: after := by
    rw [ofValue?_append hbefore, ← occurs_iff, ← List.isPrefixOf_iff_prefix,
      ← List.isSuffixOf_iff_suffix]
    cases occurs ['.', '*', '.'] (before ++ '*' :: after) <;>
      cases ['.', '*'].isSuffixOf (before ++ '*' :: after) <;>
      cases ['*', '.'].isPrefixOf (before ++ '*' :: after) <;> simp
  rw [hwild]
  constructor
  · intro h
    have hunmatched := h.unmatched
    rw [hopen] at hunmatched
    exact ⟨⟨h.ends_open, h.not_opened, h.not_inner⟩, hfirst.mp h.star_first, h.two_dots,
      hunmatched⟩
  · rintro ⟨⟨hends, hopened, hinner⟩, hdot, htwo, hunmatched⟩
    exact ⟨hends, hopened, hinner, htwo, hfirst.mpr hdot, by rwa [hopen]⟩

/-- The expansion of a tag that is no wildcard leaves a result or an error of reading. -/
theorem settled_expand_of_no_wildcard (t : Tag) (hwild : Wildcard.ofValue? t.value.toList = none)
    (pool : List Tag) : Settled (t.expand pool) := by
  rw [expand, hwild]
  dsimp only
  split
  · exact settled_ok [t]
  · split
    · simp only [incremented]
      exact settled_mapM _ _
    · split_ifs <;> exact settled_ok _

/-- An expansion misses a cut or settles, and which of them is seen from the identifiers. -/
theorem expand_cases_overruns (t : Tag) (pool : List Tag) :
    (Overruns t.value.toList pool ∧ t.expand pool = .error (.starBeforeDot t.raw)) ∨
      (¬ Overruns t.value.toList pool ∧ Settled (t.expand pool)) := by
  by_cases hstar : '*' ∈ t.value.toList
  swap
  · have hnot : ¬ Overruns t.value.toList pool := fun h => hstar (h.ends_open.subset (by simp))
    exact .inr ⟨hnot, t.settled_expand_of_no_wildcard (ofValue?_eq_none hstar) pool⟩
  obtain ⟨before, after, hvalue, hbefore⟩ := List.eq_append_cons_of_mem hstar
  have hoverruns := overruns_append_iff hbefore after pool
  rw [← hvalue] at hoverruns
  cases hwild : Wildcard.ofValue? t.value.toList with
  | none =>
    rw [hwild] at hoverruns
    exact .inr ⟨fun h => Option.some_ne_none _ (hoverruns.mp h).1.symm,
      t.settled_expand_of_no_wildcard hwild pool⟩
  | some w =>
    have hexpand : t.expand pool = t.expandWildcard w pool := by
      rw [expand, isTemplate_of_star hstar, hwild]
      rfl
    have hhead : ∀ head, w = ⟨some head, none⟩ → head = before := by
      rintro head rfl
      rw [hvalue, ofValue?_append hbefore, Option.ite_none_right_eq_some] at hwild
      have hsome := congrArg Wildcard.head (Option.some.inj hwild.2)
      simp only [Option.ite_none_right_eq_some, Option.some.injEq] at hsome
      exact hsome.2.symm
    have hmisses : Overruns t.value.toList pool ↔ t.Misses w pool := by
      rw [hoverruns, hwild, Option.some.injEq]
      constructor
      · exact fun h => ⟨before, h⟩
      · rintro ⟨head, h⟩
        exact hhead head h.1 ▸ h
    rw [hexpand, hmisses]
    exact t.expandWildcard_cases w pool

/-- **Where an expansion overruns.** The expansion that cuts at byte offsets is the expansion. One
of its cuts lies out of bounds exactly for a wildcard that has a star before both of its dots or
more, only its head to hold, and nothing in the pool to start with the text before the star; in
every other case there is a result or the error of a text read as a tag. -/
theorem expand_overruns_iff (t : Tag) (pool : List Tag) :
    (t.cutExpand pool).mapError (CutFault.ofTemplate t.raw) = t.expand pool ∧
      (t.cutExpand pool = .error .outOfBounds ↔ Overruns t.value.toList pool) ∧
      (t.expand pool = .error (.starBeforeDot t.raw) ↔ Overruns t.value.toList pool) ∧
      (Overruns t.value.toList pool ∨ Settled (t.expand pool)) := by
  have hcut := cutExpand_eq t pool
  have hfault : t.expand pool = .error (.starBeforeDot t.raw) ↔
      t.cutExpand pool = .error .outOfBounds := by
    rw [← hcut]
    cases t.cutExpand pool with
    | ok found => simp [Except.mapError]
    | error fault => cases fault <;> simp [Except.mapError, CutFault.ofTemplate]
  have hmisses : t.expand pool = .error (.starBeforeDot t.raw) ↔ Overruns t.value.toList pool := by
    rcases expand_cases_overruns t pool with ⟨hover, hexpand⟩ | ⟨hnot, hsettled⟩
    · exact iff_of_true hexpand hover
    · refine iff_of_false (fun hexpand => ?_) hnot
      rw [hexpand] at hsettled
      rcases hsettled with ⟨found, hfound⟩ | ⟨text, e, -, he⟩
      · cases hfound
      · cases he
  exact ⟨hcut, hfault.symm.trans hmisses, hmisses,
    (expand_cases_overruns t pool).imp And.left And.right⟩

end Tag

/-! ### A chest

Any part of a hero's chest is asked for, where no hero is around.
-/

namespace Chest

def bread : Tag := ⟨"bread.2", ⟨.plain, "bread.2", none, .ofValue 2⟩, by decide, by rfl⟩
def anyPart : Tag := ⟨"hero*.chest.*", ⟨.plain, "hero*.chest.*", none, .unset⟩, by decide, by rfl⟩

example : anyPart.cutExpand [bread] = .error .outOfBounds := by rfl

end Chest

end StoryTape
