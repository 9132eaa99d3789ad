import Mathlib.Data.List.Basic
import StoryTape.Proofs.ComposedTags
import StoryTape.Proofs.PlainPool

/-!
# What wildcards find

A wildcard `a.*`, `*.b` or `a.*.b` is looked up in a pool of tags without notation. It yields the
identifiers that begin and end as it does; failing these, with one open end and a second segment to
drop, its own text filled with what follows, or precedes, the other segments in the pool. Either way
texts are put together and read anew. They meet at a dot, and two dots in a row would be a range;
but where the filling was taken from, a dot stood in its place already.
-/

namespace StoryTape

open Text

namespace Text

/-! ### Cutting, filling and comparing -/

/-- No capital is a dot in small. -/
theorem eq_dot_of_toLower {c : Char} (h : c.toLower = '.') : c = '.' :=
  (apply_toLower (· = '.') (by decide) c).mp h

/-- Where a text starts with one that ends with a dot, no further dot follows unless there are two
in a row. -/
theorem head?_drop_ne_dot {s head : List Char} (hs : ¬ ['.', '.'] <:+: s)
    (hstarts : startsWithFold s head = true) (hdot : head.getLast? = some '.') :
    (s.drop head.length).head? ≠ some '.' := by
  obtain ⟨c, hc, hlower⟩ : ∃ c, (s.take head.length).getLast? = some c ∧ c.toLower = '.' := by
    have hopen := List.prefix_iff_eq_take.mp (List.isPrefixOf_iff_prefix.mp hstarts)
    have hlast := congrArg List.getLast? hopen
    rw [fold, fold, List.length_map, ← List.map_take, List.getLast?_map, List.getLast?_map,
      hdot, eq_comm, Option.map_some, Option.map_eq_some_iff] at hlast
    exact hlast
  obtain rfl := eq_dot_of_toLower hlower
  intro hhead
  obtain ⟨x, hx⟩ := List.getLast?_eq_some_iff.mp hc
  obtain ⟨y, hy⟩ := List.head?_eq_some_iff.mp hhead
  refine hs ⟨x, y, ?_⟩
  rw [← List.take_append_drop head.length s, hx, hy]
  simp

/-- The same at the other end. -/
theorem getLast?_take_ne_dot {s tail : List Char} (hs : ¬ ['.', '.'] <:+: s)
    (hends : endsWithFold s tail = true) (hdot : tail.head? = some '.') :
    (s.take (s.length - tail.length)).getLast? ≠ some '.' := by
  obtain ⟨c, hc, hlower⟩ :
      ∃ c, (s.drop (s.length - tail.length)).head? = some c ∧ c.toLower = '.' := by
    have hclose := List.suffix_iff_eq_drop.mp (List.isSuffixOf_iff_suffix.mp hends)
    have hhead := congrArg List.head? hclose
    rw [fold, fold, List.length_map, List.length_map, ← List.map_drop, List.head?_map,
      List.head?_map, hdot, eq_comm, Option.map_some, Option.map_eq_some_iff] at hhead
    exact hhead
  obtain rfl := eq_dot_of_toLower hlower
  intro hlast
  obtain ⟨x, hx⟩ := List.getLast?_eq_some_iff.mp hlast
  obtain ⟨y, hy⟩ := List.head?_eq_some_iff.mp hc
  refine hs ⟨x, y, ?_⟩
  rw [← List.take_append_drop (s.length - tail.length) s, hx, hy]
  simp

/-! ### Texts without notation -/

/-- A text that says nothing but itself in a tag, stars aside: it holds no marker of a meter, no
angle bracket and no blank. -/
structure Bare (s : List Char) : Prop where
  unmarked : Unmarked s
  unbracketed : ∀ c ∈ s, c ≠ '<' ∧ c ≠ '>'
  unspaced : ∀ c ∈ s, isBlank c = false

instance (s : List Char) : Decidable (Bare s) :=
  decidable_of_iff
    (Unmarked s ∧ s.all (fun c => c != '<' && c != '>' && !isBlank c) = true) <| by
    simp only [List.all_eq_true, Bool.and_eq_true, bne_iff_ne, Bool.not_eq_true']
    constructor
    · rintro ⟨hunmarked, hall⟩
      exact ⟨hunmarked, fun c hc => (hall c hc).1, fun c hc => (hall c hc).2⟩
    · intro h
      exact ⟨h.unmarked, fun c hc => ⟨h.unbracketed c hc, h.unspaced c hc⟩⟩

/-- An empty text says nothing at all. -/
theorem Bare.nil : Bare [] :=
  ⟨fun _ _ hin => List.cons_ne_nil _ _ (List.infix_nil.mp hin), nofun, nofun⟩

/-- A part of a bare text is bare. -/
theorem Bare.mono {s t : List Char} (h : Bare t) (hst : s <:+: t) : Bare s where
  unmarked := h.unmarked.mono hst
  unbracketed c hc := h.unbracketed c (hst.subset hc)
  unspaced c hc := h.unspaced c (hst.subset hc)

/-- Two such texts are joined to one where no marker comes into being. -/
theorem Bare.append {s t : List Char} (hs : Bare s) (ht : Bare t)
    (hjoin : ∀ m ∈ meterMarkers, s.getLast? = some m.1 → t.head? ≠ some m.2) : Bare (s ++ t) where
  unmarked m hm hin := by
    rcases pair_infix_append hin with hin | hin | ⟨hlast, hhead⟩
    · exact hs.unmarked m hm hin
    · exact ht.unmarked m hm hin
    · exact hjoin m hm hlast hhead
  unbracketed c hc := (List.mem_append.mp hc).elim (hs.unbracketed c) (ht.unbracketed c)
  unspaced c hc := (List.mem_append.mp hc).elim (hs.unspaced c) (ht.unspaced c)

/-- Behind a dot only a dot makes a marker. -/
theorem Bare.append_of_dot {s t : List Char} (hs : Bare s) (ht : Bare t)
    (hdot : s.getLast? = some '.') (hhead : t.head? ≠ some '.') : Bare (s ++ t) := by
  have hmarkers : ∀ m ∈ meterMarkers, m.1 = '.' → m.2 = '.' := by decide
  refine hs.append ht fun m hm hlast => ?_
  rw [hmarkers m hm (Option.some.inj (hlast.symm.trans hdot))]
  exact hhead

/-- Nor does anything else in front of one. -/
theorem Bare.append_dot {s t : List Char} (hs : Bare s) (ht : Bare t)
    (hlast : s.getLast? ≠ some '.') (hdot : t.head? = some '.') : Bare (s ++ t) := by
  have hmarkers : ∀ m ∈ meterMarkers, m.2 = '.' → m.1 = '.' := by decide
  refine hs.append ht fun m hm hfirst hhead => hlast ?_
  rw [hfirst, hmarkers m hm (Option.some.inj (hhead.symm.trans hdot))]

/-- A star makes no marker with what stands around it. -/
theorem Bare.append_cons_star {s t : List Char} (hs : Bare s) (ht : Bare t) :
    Bare (s ++ '*' :: t) := by
  have hmarkers : ∀ m ∈ meterMarkers, m.1 ≠ '*' ∧ m.2 ≠ '*' := by decide
  have hstar : Bare ['*'] := by decide
  have hrest : Bare (['*'] ++ t) := hstar.append ht fun m hm hlast =>
    absurd (Option.some.inj hlast).symm (hmarkers m hm).1
  exact hs.append hrest fun m hm _ hhead => (hmarkers m hm).2 (Option.some.inj hhead).symm

/-- A bare text names no location. -/
theorem Bare.splitLocation_eq {s : List Char} (h : Bare s) : splitLocation s = (s, none) :=
  splitLocation_eq_self_iff.mpr (by simp [brackets_eq_nil h.unbracketed])

end Text

/-! ### Tags without notation -/

namespace Tag

/-- A tag without notation: its text says nothing but itself. -/
structure Bare (p : Tag) : Prop where
  /-- It has no sign. -/
  mode_eq : p.mode = .plain
  /-- It lies nowhere in particular. -/
  location_eq : p.location = none
  /-- It is no wildcard. -/
  starless : '*' ∉ p.raw.toList
  /-- Nothing else in its text has a meaning either. -/
  text : Text.Bare p.raw.toList

/-- A name in angle brackets that holds no wildcard, no range and no further bracket to open. -/
def Inert (name : Option String) : Prop :=
  ∀ inside, name = some inside →
    '*' ∉ inside.toList ∧ ¬ ['.', '.'] <:+: inside.toList ∧ '<' ∉ inside.toList

/-- A text of the form `a.*`, `*.b` or `a.*.b` with segments that say nothing but themselves,
between any sign and a name in brackets or none. -/
structure IsWildcard (t : Tag) (before after : List Char) (name : Option String) : Prop where
  /-- The text is put together from its parts. -/
  raw_eq : t.raw = compose t.mode (before ++ '*' :: after) name
  before_starless : '*' ∉ before
  before_bare : Text.Bare before
  after_starless : '*' ∉ after
  after_bare : Text.Bare after
  /-- A dot stands in front of the star, if anything does. -/
  before_end : before = [] ∨ before.getLast? = some '.'
  /-- A dot stands behind it, if anything does. -/
  after_start : after = [] ∨ after.head? = some '.'
  /-- It is not the only segment. -/
  not_alone : before ≠ [] ∨ after ≠ []
  name_inert : Inert name

/-- The identifiers of a pool that begin with one text and end with another, ignoring case. -/
def between (before after : List Char) (pool : List Tag) : List Tag :=
  pool.filter fun p =>
    startsWithFold p.value.toList before && endsWithFold p.value.toList after

/-- A text behind its first dot. -/
def behindFirstDot (s : List Char) : List Char := (s.dropWhile (· ≠ '.')).tail

/-- A text before its last dot. -/
def beforeLastDot (s : List Char) : List Char := (behindFirstDot s.reverse).reverse

/-- Behind the first dot stands what follows it. -/
theorem behindFirstDot_append {s : List Char} (h : '.' ∉ s) (t : List Char) :
    behindFirstDot (s ++ '.' :: t) = t := by
  have hkept : ∀ c ∈ s, (decide (c ≠ '.')) = true := fun c hc =>
    decide_eq_true (ne_of_mem_of_not_mem hc h)
  rw [behindFirstDot, List.dropWhile_append_of_pos hkept]
  rfl

/-- Before the last dot stands what precedes it. -/
theorem beforeLastDot_append (s : List Char) {t : List Char} (h : '.' ∉ t) :
    beforeLastDot (s ++ '.' :: t) = s := by
  have hreverse : (s ++ '.' :: t).reverse = t.reverse ++ '.' :: s.reverse := by simp
  rw [beforeLastDot, hreverse, behindFirstDot_append (by simpa using h), List.reverse_reverse]

/-- Of two dots, the one a text ends with stays behind the first. -/
theorem getLast?_behindFirstDot {s : List Char} (htwo : 2 ≤ s.count '.')
    (hlast : s.getLast? = some '.') : (behindFirstDot s).getLast? = some '.' := by
  obtain ⟨first, rest, rfl, hfirst⟩ := List.eq_append_cons_of_mem (List.mem_of_getLast? hlast)
  rw [behindFirstDot_append hfirst]
  have hcount : 1 ≤ rest.count '.' := by
    rw [List.count_append, List.count_eq_zero.mpr hfirst, List.count_cons_self] at htwo
    omega
  have hne : rest ≠ [] := List.ne_nil_of_mem (List.count_pos_iff.mp hcount)
  rwa [List.getLast?_append_cons, List.getLast?_cons_of_ne_nil hne] at hlast

/-- With two dots, a text that starts with one still does before the last. -/
theorem head?_beforeLastDot {s : List Char} (htwo : 2 ≤ s.count '.')
    (hhead : s.head? = some '.') : (beforeLastDot s).head? = some '.' := by
  rw [beforeLastDot, List.head?_reverse]
  exact getLast?_behindFirstDot (by rwa [List.count_reverse]) (by rwa [List.getLast?_reverse])

/-- What follows a text in the longer identifiers that start with it. -/
def followers (head : List Char) (pool : List Tag) : List (List Char) :=
  (pool.filter fun p =>
    startsWithFold p.value.toList head && head.length < p.value.toList.length).map
      fun p => p.value.toList.drop head.length

/-- What precedes a text in the longer identifiers that end with it. -/
def leaders (tail : List Char) (pool : List Tag) : List (List Char) :=
  (pool.filter fun p =>
    endsWithFold p.value.toList tail && tail.length < p.value.toList.length).map
      fun p => p.value.toList.take (p.value.toList.length - tail.length)

/-- What takes the place of the star when no identifier fits: of `a.b.*` what follows `b.` in
identifiers, of `*.a.b` what precedes `.a` in them, and nothing without a segment to drop. -/
def fillings (before after : List Char) (pool : List Tag) : List (List Char) :=
  if (before ++ after).count '.' < 2 then []
  else if after = [] then followers (behindFirstDot before) pool
  else if before = [] then leaders (beforeLastDot after) pool
  else []

/-- With its first segment dropped, a wildcard is filled with what follows the others. -/
theorem expandDroppingFirst_eq (t : Tag) {head : List Char} (hdot : '.' ∈ head) (pool : List Tag) :
    t.expandDroppingFirst head pool =
      (followers (behindFirstDot head) pool).mapM fun fill => (t.fillStars fill).toExpanded := by
  obtain ⟨first, rest, rfl, hfirst⟩ := List.eq_append_cons_of_mem hdot
  simp only [expandDroppingFirst, splitFirst_append hfirst, behindFirstDot_append hfirst, followers,
    List.mapM_map, Function.comp_def]

/-- With its last segment dropped, with what precedes the others. -/
theorem expandDroppingLast_eq (t : Tag) {tail : List Char} (hdot : '.' ∈ tail) (pool : List Tag) :
    t.expandDroppingLast tail pool =
      (leaders (beforeLastDot tail) pool).mapM fun fill => (t.fillStars fill).toExpanded := by
  obtain ⟨⟨rest, last⟩, hcut⟩ := Option.ne_none_iff_exists'.mp
    (mt splitLast_eq_none_iff_notMem.mp (not_not.mpr hdot))
  have hrest : beforeLastDot tail = rest := by
    rw [eq_append_of_splitLast hcut, List.append_assoc]
    exact beforeLastDot_append rest (notMem_of_splitLast hcut)
  simp only [expandDroppingLast, hcut, hrest, leaders, List.mapM_map, Function.comp_def]

/-- The identifier of such a tag is its text. -/
theorem Bare.value_eq {p : Tag} (h : p.Bare) : p.value.toList = p.raw.toList := by
  obtain ⟨body, name, hlocation, hmode, hmeter, -, hvalue⟩ := TagParts.read_eq_ok p.read_raw
  rw [h.text.splitLocation_eq] at hlocation
  obtain rfl := (Prod.mk.inj hlocation).1
  have hsign := sign_append_splitSign p.raw.toList
  rw [← hmode, ← mode, h.mode_eq, TagMode.sign, List.nil_append] at hsign
  rw [hsign, splitMeter_of_unmarked h.text.unmarked] at hmeter
  rw [value, hvalue, String.toList_ofList]
  exact (Prod.mk.inj (Except.ok.inj hmeter)).1.symm

/-- The identifier of a bare tag is bare. -/
theorem Bare.bare_value {p : Tag} (h : p.Bare) : Text.Bare p.value.toList := h.value_eq ▸ h.text

/-- The identifier of a bare tag holds no star. -/
theorem Bare.starless_value {p : Tag} (h : p.Bare) : '*' ∉ p.value.toList :=
  h.value_eq ▸ h.starless

/-- The identifier of a bare tag holds no two dots in a row. -/
theorem Bare.no_dots {p : Tag} (h : p.Bare) : ¬ ['.', '.'] <:+: p.value.toList :=
  h.bare_value.unmarked ('.', '.') (by decide)

/-- It can follow any sign. -/
theorem Bare.follows {p : Tag} (h : p.Bare) (mode : TagMode) : Follows p.value.toList mode :=
  fun _ => p.follows_value h.mode_eq

/-- An inert name can be put behind a bare identifier. -/
theorem closes_of_bare {value : List Char} {name : Option String} (hvalue : Text.Bare value)
    (hname : Inert name) : Closes value name := by
  cases name with
  | none =>
    exact ⟨hvalue.splitLocation_eq, fun c hc => hvalue.unspaced c (List.mem_of_getLast? hc)⟩
  | some inside => exact (hname inside rfl).2.2

/-- Neither a star nor a range comes into a composed text. -/
theorem not_marked_compose {value : List Char} {name : Option String} (hstar : '*' ∉ value)
    (hvalue : Text.Bare value) (hname : Inert name) (mode : TagMode) :
    '*' ∉ (compose mode value name).toList ∧
      ¬ ['.', '.'] <:+: (compose mode value name).toList := by
  have hstar := starless_sign_append hstar mode
  have hdots := unmarked_sign_append hvalue.unmarked mode ('.', '.') (by decide)
  cases name with
  | none =>
    rw [compose, String.toList_ofList]
    exact ⟨hstar, hdots⟩
  | some inside =>
    obtain ⟨hinside, hrange, -⟩ := hname inside rfl
    rw [compose, String.toList_ofList, List.append_assoc]
    refine ⟨by simpa [hinside] using hstar, fun hin => ?_⟩
    rcases pair_infix_append hin with hin | hin | ⟨-, hhead⟩
    · exact hdots hin
    · rcases List.infix_cons_iff.mp hin with hin | hin
      · exact absurd (List.cons_prefix_cons.mp hin).1 (by decide)
      · rcases pair_infix_append hin with hin | hin | ⟨-, hhead⟩
        · exact hrange hin
        · exact absurd hin.length_le (by decide)
        · exact absurd hhead (by decide)
    · exact absurd hhead (by simp)

/-- A composed tag without notation has the parts it was put together from, and is no template. -/
theorem parse_compose_bare {mode : TagMode} {value : List Char} {name : Option String}
    (hne : value ≠ []) (hstar : '*' ∉ value) (hvalue : Text.Bare value)
    (hopen : Follows value mode) (hname : Inert name) :
    ∃ r, parse (compose mode value name) = .ok r ∧ r.raw = compose mode value name ∧
      r.value.toList = value ∧ r.isTemplate = false ∧ r.mode = mode ∧
      r.location = name.bind (place ·.toList) := by
  obtain ⟨r, hr, hraw, hmode, hr_value, hlocation, hmeter⟩ := parse_compose hne hvalue.unmarked
    hopen (closes_of_bare hvalue hname)
  obtain ⟨hstar, hdots⟩ := not_marked_compose hstar hvalue hname mode
  rw [← hraw] at hstar hdots
  exact ⟨r, hr, hraw, hr_value, isTemplate_eq_false hstar hdots hmeter, hmode, hlocation⟩

/-- The place of a place is itself. -/
theorem bind_place_bind_place (name : Option String) :
    (name.bind (place ·.toList)).bind (place ·.toList) = name.bind (place ·.toList) := by
  cases name with
  | none => rfl
  | some inside =>
    simp only [Option.bind_some, place]
    split
    · rfl
    · next hne => simpa using hne

/-- The place that an inert name stands for is inert. -/
theorem Inert.place {name : Option String} (h : Inert name) :
    Inert (name.bind (place ·.toList)) := by
  intro found hfound
  cases name with
  | none => cases hfound
  | some inside =>
    obtain ⟨hstar, hdots, hopen⟩ := h inside rfl
    rw [Option.bind_some, Tag.place] at hfound
    split at hfound
    · cases hfound
    · obtain rfl := Option.some.inj hfound
      have hwithin := trim_within inside.toList
      rw [String.toList_ofList]
      exact ⟨fun hmem => hstar (hwithin.subset hmem), fun hin => hdots (hin.trans hwithin),
        fun hmem => hopen (hwithin.subset hmem)⟩

/-! ### Wildcards -/

namespace IsWildcard

variable {t : Tag} {before after : List Char} {name : Option String}

/-- The identifier of such a wildcard is bare. -/
theorem bare (h : IsWildcard t before after name) : Text.Bare (before ++ '*' :: after) :=
  h.before_bare.append_cons_star h.after_bare

/-- The text of a wildcard is read as it was put together. -/
theorem read (h : IsWildcard t before after name) :
    t.value.toList = before ++ '*' :: after ∧ t.location = name.bind (place ·.toList) := by
  obtain ⟨body, found, hlocation, hmode, hmeter, -, hvalue⟩ := TagParts.read_eq_ok t.read_raw
  rw [h.raw_eq, splitLocation_compose_eq (closes_of_bare h.bare h.name_inert)] at hlocation
  obtain ⟨rfl, hplace⟩ := Prod.mk.inj hlocation
  have hbody : (splitSign (t.mode.sign ++ (before ++ '*' :: after))).2 =
      before ++ '*' :: after := by
    have hsign := sign_append_splitSign (t.mode.sign ++ (before ++ '*' :: after))
    rw [← hmode] at hsign
    exact List.append_cancel_left hsign
  rw [hbody, splitMeter_of_unmarked h.bare.unmarked] at hmeter
  refine ⟨?_, hplace.symm⟩
  rw [value, hvalue, String.toList_ofList]
  exact (Prod.mk.inj (Except.ok.inj hmeter)).1.symm

/-- Where the one star of a text stands within a pattern of dots around it. -/
theorem split_unique (h : IsWildcard t before after name) {x y : List Char}
    (hsplit : before ++ '*' :: after = x ++ '*' :: y) : x = before ∧ y = after := by
  obtain ⟨hx, -, hy⟩ :=
    (List.append_cons_inj_of_notMem h.before_starless h.after_starless).mp hsplit
  exact ⟨hx.symm, hy.symm⟩

/-- Which ends of a wildcard are held is seen from the dots next to its star. -/
theorem ofValue?_eq (h : IsWildcard t before after name) :
    Wildcard.ofValue? (before ++ '*' :: after) = some
      ⟨if before = [] then none else some before, if after = [] then none else some after⟩ := by
  have hinner : occurs ['.', '*', '.'] (before ++ '*' :: after) = true ↔
      before ≠ [] ∧ after ≠ [] := by
    rw [occurs_iff]
    constructor
    · rintro ⟨x, y, hxy⟩
      obtain ⟨rfl, rfl⟩ := h.split_unique (x := x ++ ['.']) (y := '.' :: y) (by simp [← hxy])
      exact ⟨by simp, by simp⟩
    · rintro ⟨hbefore, hafter⟩
      obtain ⟨x, rfl⟩ := List.getLast?_eq_some_iff.mp (h.before_end.resolve_left hbefore)
      obtain ⟨y, rfl⟩ := List.head?_eq_some_iff.mp (h.after_start.resolve_left hafter)
      exact ⟨x, y, by simp⟩
  have hhead : ['.', '*'].isSuffixOf (before ++ '*' :: after) = true ↔
      before ≠ [] ∧ after = [] := by
    rw [List.isSuffixOf_iff_suffix]
    constructor
    · rintro ⟨x, hx⟩
      obtain ⟨rfl, rfl⟩ := h.split_unique (x := x ++ ['.']) (y := []) (by simp [← hx])
      exact ⟨by simp, rfl⟩
    · rintro ⟨hbefore, rfl⟩
      obtain ⟨x, rfl⟩ := List.getLast?_eq_some_iff.mp (h.before_end.resolve_left hbefore)
      exact ⟨x, by simp⟩
  have htail : ['*', '.'].isPrefixOf (before ++ '*' :: after) = true ↔
      before = [] ∧ after ≠ [] := by
    rw [List.isPrefixOf_iff_prefix]
    constructor
    · rintro ⟨y, hy⟩
      obtain ⟨rfl, rfl⟩ := h.split_unique (x := []) (y := '.' :: y) (by simp [← hy])
      exact ⟨rfl, by simp⟩
    · rintro ⟨rfl, hafter⟩
      obtain ⟨y, rfl⟩ := List.head?_eq_some_iff.mp (h.after_start.resolve_left hafter)
      exact ⟨y, by simp⟩
  have hnot := h.not_alone
  rw [Wildcard.ofValue?, splitFirst_append h.before_starless]
  by_cases hbefore : before = [] <;> by_cases hafter : after = [] <;>
    simp_all

/-- A wildcard matches what begins and ends with its segments. -/
theorem matchesValue_eq (before after value : List Char) :
    (⟨if before = [] then none else some before, if after = [] then none else some after⟩ :
      Wildcard).matchesValue value =
        (startsWithFold value before && endsWithFold value after) := by
  have hstarts : startsWithFold value [] = true := by simp [startsWithFold, fold]
  have hends : endsWithFold value [] = true := by simp [endsWithFold, fold]
  by_cases hbefore : before = [] <;> by_cases hafter : after = [] <;>
    simp [Wildcard.matchesValue, hbefore, hafter, hstarts, hends]

/-- A wildcard moves the tags that fit to its own place, or fills its star in the second try. -/
theorem expand_eq (h : IsWildcard t before after name) (pool : List Tag) :
    t.expand pool = (do
      let found ← (between before after pool).mapM fun p =>
        (p.relocated t.location t.mode).toExpanded
      if !found.isEmpty then return found
      (fillings before after pool).mapM fun fill => (t.fillStars fill).toExpanded) := by
  have htemplate : t.isTemplate = true := by
    have hjoker : t.isJoker = true := by
      cases name <;> simp [isJoker, h.raw_eq, compose]
    simp [isTemplate, hjoker]
  have hcount : t.value.toList.count '.' = (before ++ after).count '.' := by
    rw [h.read.1]
    simp
  rw [expand, htemplate, h.read.1, h.ofValue?_eq]
  simp only [Bool.not_true, Bool.false_eq_true, if_false, expandWildcard, matchesValue_eq, hcount,
    between]
  refine bind_congr fun found => ?_
  split
  · rfl
  · rw [fillings]
    split
    · rfl
    · by_cases hafter : after = []
      · have hbefore : before ≠ [] := h.not_alone.resolve_right (not_not.mpr hafter)
        have hdot := List.mem_of_getLast? (h.before_end.resolve_left hbefore)
        simp only [hbefore, hafter, if_true, if_false, expandDroppingFirst_eq t hdot]
      · by_cases hbefore : before = []
        · have hdot := List.mem_of_head? (h.after_start.resolve_left hafter)
          simp only [hbefore, hafter, if_true, if_false, expandDroppingLast_eq t hdot]
        · simp only [hbefore, hafter, if_false]
          rfl

/-- What follows a dot in the pool makes no marker behind a dot. -/
theorem filled_behind (h : IsWildcard t before [] name) (htwo : 2 ≤ before.count '.') {p : Tag}
    (hp : p.Bare) (hstarts : startsWithFold p.value.toList (behindFirstDot before) = true) :
    Text.Bare (before ++ p.value.toList.drop (behindFirstDot before).length) ∧
      Follows (before ++ p.value.toList.drop (behindFirstDot before).length) t.mode := by
  have hne : before ≠ [] := h.not_alone.resolve_right (not_not.mpr rfl)
  have hend := h.before_end.resolve_left hne
  have hdrop : Text.Bare (p.value.toList.drop (behindFirstDot before).length) :=
    hp.bare_value.mono (List.drop_suffix _ _).isInfix
  refine ⟨h.before_bare.append_of_dot hdrop hend ?_, t.follows_value.of_head?_eq ?_⟩
  · exact head?_drop_ne_dot hp.no_dots hstarts (getLast?_behindFirstDot htwo hend)
  · rw [h.read.1, List.head?_append_of_ne_nil _ hne, List.head?_append_of_ne_nil _ hne]

/-- What precedes a dot in the pool makes no marker before a dot. -/
theorem filled_before (h : IsWildcard t [] after name) (htwo : 2 ≤ after.count '.') {p : Tag}
    (hp : p.Bare) (hends : endsWithFold p.value.toList (beforeLastDot after) = true)
    (hlonger : (beforeLastDot after).length < p.value.toList.length) :
    Text.Bare
        (p.value.toList.take (p.value.toList.length - (beforeLastDot after).length) ++ after) ∧
      (p.value.toList.take (p.value.toList.length - (beforeLastDot after).length) ++ after).head? =
        p.value.toList.head? := by
  have hstart := h.after_start.resolve_left (h.not_alone.resolve_left (not_not.mpr rfl))
  generalize hlength : p.value.toList.length - (beforeLastDot after).length = n
  have htake : Text.Bare (p.value.toList.take n) :=
    hp.bare_value.mono (List.take_prefix _ _).isInfix
  refine ⟨htake.append_dot h.after_bare ?_ hstart, ?_⟩
  · rw [← hlength]
    exact getLast?_take_ne_dot hp.no_dots hends (head?_beforeLastDot htwo hstart)
  · obtain ⟨n, rfl⟩ : ∃ m, n = m + 1 := ⟨n - 1, by omega⟩
    obtain ⟨c, r, hcons⟩ := List.exists_cons_of_ne_nil p.value_ne_nil
    simp [hcons]

/-- What is filled in makes no marker with the dot it comes to stand at. -/
theorem of_mem_fillings (h : IsWildcard t before after name) {pool : List Tag}
    (hpool : ∀ p ∈ pool, p.Bare) {fill : List Char} (hfill : fill ∈ fillings before after pool) :
    '*' ∉ fill ∧ Text.Bare (before ++ fill ++ after) ∧
      Follows (before ++ fill ++ after) t.mode := by
  rw [fillings] at hfill
  split at hfill
  · cases hfill
  next htwo =>
  rw [Nat.not_lt] at htwo
  split at hfill
  · next hafter =>
    subst hafter
    simp only [followers, List.append_nil, List.mem_map, List.mem_filter,
      Bool.and_eq_true] at htwo hfill ⊢
    obtain ⟨p, ⟨hp, hstarts, -⟩, rfl⟩ := hfill
    exact ⟨fun hmem => (hpool p hp).starless_value (List.mem_of_mem_drop hmem),
      h.filled_behind htwo (hpool p hp) hstarts⟩
  · split at hfill
    · next hbefore =>
      subst hbefore
      simp only [leaders, List.nil_append, List.mem_map, List.mem_filter, Bool.and_eq_true,
        decide_eq_true_eq] at htwo hfill ⊢
      obtain ⟨p, ⟨hp, hends, hlonger⟩, rfl⟩ := hfill
      obtain ⟨hbare, hhead⟩ := h.filled_before htwo (hpool p hp) hends hlonger
      exact ⟨fun hmem => (hpool p hp).starless_value (List.mem_of_mem_take hmem), hbare,
        ((hpool p hp).follows t.mode).of_head?_eq hhead⟩
    · cases hfill

/-- A tag that fits is moved to the place of the wildcard. -/
theorem exists_relocated (h : IsWildcard t before after name) {p : Tag} (hp : p.Bare) :
    ∃ r, (p.relocated t.location t.mode).toExpanded = .ok r ∧
      (r.isTemplate = false ∧ r.mode = t.mode ∧ r.location = t.location) ∧ r.value = p.value := by
  have hlocation := h.read.2
  obtain ⟨r, hr, -, hvalue, htemplate, hmode, hr_location⟩ := parse_compose_bare
    p.value_ne_nil hp.starless_value hp.bare_value (hp.follows t.mode) h.name_inert.place
  rw [bind_place_bind_place, ← hlocation] at hr_location
  rw [← hlocation] at hr
  refine ⟨r, ?_, ⟨htemplate, hmode, hr_location⟩, String.toList_inj.mp hvalue⟩
  rw [relocated, hr]
  rfl

/-- The star of the wildcard's text is replaced and nothing else. -/
theorem replaceChar_raw (h : IsWildcard t before after name) (fill : List Char) :
    replaceChar '*' fill t.raw.toList = (compose t.mode (before ++ fill ++ after) name).toList := by
  have hsign : '*' ∉ t.mode.sign := by cases t.mode <;> decide
  have hstar : replaceChar '*' fill (t.mode.sign ++ (before ++ '*' :: after)) =
      t.mode.sign ++ (before ++ fill ++ after) := by
    have hcons : replaceChar '*' fill ('*' :: after) = fill ++ replaceChar '*' fill after := rfl
    rw [replaceChar_append, replaceChar_append, replaceChar_eq_self hsign,
      replaceChar_eq_self h.before_starless, hcons, replaceChar_eq_self h.after_starless,
      List.append_assoc]
  rw [h.raw_eq]
  cases hname : name with
  | none => simpa only [compose, String.toList_ofList] using hstar
  | some inside =>
    have hrest : '*' ∉ '<' :: inside.toList ++ ['>'] := by
      simp [(h.name_inert inside hname).1]
    simp only [compose, String.toList_ofList]
    rw [List.append_assoc, replaceChar_append, hstar, replaceChar_eq_self hrest,
      ← List.append_assoc]

/-- A wildcard whose star is filled can be read. -/
theorem exists_filled (h : IsWildcard t before after name) {pool : List Tag}
    (hpool : ∀ p ∈ pool, p.Bare) {fill : List Char} (hfill : fill ∈ fillings before after pool) :
    ∃ r, (t.fillStars fill).toExpanded = .ok r ∧
      (r.isTemplate = false ∧ r.mode = t.mode ∧ r.location = t.location) ∧
      r.raw = compose t.mode (before ++ fill ++ after) name := by
  obtain ⟨hstar, hbare, hopen⟩ := h.of_mem_fillings hpool hfill
  have hne : before ++ fill ++ after ≠ [] := by
    have hnot := h.not_alone
    intro hnil
    simp only [List.append_eq_nil_iff] at hnil
    exact hnot.elim (· hnil.1.1) (· hnil.2)
  have hstarless : '*' ∉ before ++ fill ++ after := by
    simp [h.before_starless, hstar, h.after_starless]
  obtain ⟨r, hr, hraw, -, htemplate, hmode, hlocation⟩ :=
    parse_compose_bare hne hstarless hbare hopen h.name_inert
  refine ⟨r, ?_, ⟨htemplate, hmode, hlocation.trans h.read.2.symm⟩, hraw⟩
  rw [fillStars, h.replaceChar_raw, String.ofList_toList, hr]
  rfl

end IsWildcard

/-- **What a wildcard finds.** In a pool of tags without notation, a wildcard has a result. Each tag
it yields is no template and carries its sign and location. If identifiers begin and end as it does,
their tags are what it yields, in pool order; if none does, its own text filled in. -/
theorem IsWildcard.expand_finds {t : Tag} {before after : List Char} {name : Option String}
    (h : IsWildcard t before after name) {pool : List Tag} (hpool : ∀ p ∈ pool, p.Bare) :
    ∃ found, t.expand pool = .ok found ∧
      (∀ r ∈ found, r.isTemplate = false ∧ r.mode = t.mode ∧ r.location = t.location) ∧
      (between before after pool ≠ [] →
        found.map value = (between before after pool).map value) ∧
      (between before after pool = [] → found.map raw =
        (fillings before after pool).map fun fill =>
          compose t.mode (before ++ fill ++ after) name) := by
  obtain ⟨moved, hmoved, hplaced, hvalues⟩ := exists_mapM_ok (between before after pool)
    fun p hp => h.exists_relocated (hpool p (List.mem_filter.mp hp).1)
  have hempty : moved = [] ↔ between before after pool = [] := by
    rw [← List.map_eq_nil_iff (f := value), hvalues, List.map_eq_nil_iff]
  rw [h.expand_eq, hmoved]
  by_cases hnone : between before after pool = []
  · obtain ⟨filled, hfilled, hplaced, hraws⟩ := exists_mapM_ok _
      fun fill hfill => h.exists_filled hpool hfill
    refine ⟨filled, ?_, hplaced, fun hsome => absurd hnone hsome, fun _ => hraws⟩
    rw [hempty.mpr hnone]
    exact hfilled
  · have hsome : moved ≠ [] := mt hempty.mp hnone
    refine ⟨moved, ?_, hplaced, fun _ => hvalues, fun hnil => absurd hnil hnone⟩
    simp [hsome, Bind.bind, Except.bind, Pure.pure, Except.pure]

end Tag

/-! ### An armory

A hero asks for any weapon at home. No weapon is the hero's by name, so the first segment is
dropped.
-/

namespace Armory

def axe : Tag := ⟨"weapon.axe", ⟨.plain, "weapon.axe", none, .unset⟩, by decide, by rfl⟩
def sword : Tag :=
  ⟨"Weapon.sword.2", ⟨.plain, "Weapon.sword.2", none, .ofValue 2⟩, by decide, by rfl⟩
def shield : Tag := ⟨"shield", ⟨.plain, "shield", none, .unset⟩, by decide, by rfl⟩
def anyWeapon : Tag :=
  ⟨"?hero.weapon.*<HOME>", ⟨.required, "hero.weapon.*", some "HOME", .unset⟩, by decide, by rfl⟩

end Armory

open Armory Tag in
/-- Both weapons are found, the shield is not. -/
theorem weapons_found :
    IsWildcard anyWeapon "hero.weapon.".toList [] (some "HOME") ∧
      (∀ p ∈ [axe, shield, sword], p.Bare) ∧
      ∃ found, anyWeapon.expand [axe, shield, sword] = .ok found ∧
        found.map raw = ["?hero.weapon.axe<HOME>", "?hero.weapon.sword.2<HOME>"] := by
  have hwildcard : IsWildcard anyWeapon "hero.weapon.".toList [] (some "HOME") := {
    raw_eq := by decide
    before_starless := by decide
    before_bare := by decide
    after_starless := by decide
    after_bare := .nil
    before_end := by decide
    after_start := by decide
    not_alone := by decide
    name_inert := by
      intro inside hinside
      cases hinside
      decide }
  have hpool : ∀ p ∈ [axe, shield, sword], p.Bare := by
    simp only [List.forall_mem_cons]
    exact ⟨⟨rfl, rfl, by decide, by decide⟩, ⟨rfl, rfl, by decide, by decide⟩,
      ⟨rfl, rfl, by decide, by decide⟩, nofun⟩
  obtain ⟨found, hfound, -, -, hraws⟩ := hwildcard.expand_finds hpool
  refine ⟨hwildcard, hpool, found, hfound, ?_⟩
  rw [hraws (by decide +kernel)]
  decide +kernel

end StoryTape
