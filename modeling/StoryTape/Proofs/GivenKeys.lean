import StoryTape.Proofs.NamedGrowth

/-!
# The keys given out for a text and the keys read of it

Storing a text gives out the key of each of its lines, and a signal is its own key. Reading the
name of the text numbers the lines anew and does not look at them. The two agree on every line that
is no signal; a signal keeps its key only where the number makes the same one, which is when it is
the first line of a name that is that very signal.
-/

namespace StoryTape

open Text

/-- The key of a later line ends in a digit, so it is no signal. -/
theorem isSignal_lineKey {name : String} {index : Nat} (h : index ≠ 0) :
    isSignal (lineKey name index) = false := by
  obtain ⟨digits, digit, hdigits⟩ : ∃ digits digit, writeCount index = digits ++ [digit] :=
    ⟨_, _, (List.dropLast_concat_getLast (writeCount_ne_nil index)).symm⟩
  have hdigit : digit.isDigit = true := by
    refine isDigit_of_mem_writeCount (n := index) ?_
    rw [hdigits]
    exact List.mem_append_right _ (List.mem_singleton_self digit)
  rw [isSignal, Bool.and_eq_false_iff, toList_lineKey h, hdigits]
  right
  by_contra hends
  obtain ⟨before, hbefore⟩ := List.isSuffixOf_iff_suffix.mp (eq_true_of_ne_false hends)
  have hlast := congrArg List.getLast? hbefore
  rw [← List.cons_append, ← List.append_assoc, List.getLast?_concat, List.getLast?_append] at hlast
  obtain rfl : '>' = digit := Option.some.inj hlast
  exact absurd hdigit (by decide)

/-- A signal has the key that its number makes only as the first line of its own name. -/
theorem eq_lineKey_iff_of_isSignal {name line : String} {index : Nat} (h : isSignal line = true) :
    line = lineKey name index ↔ index = 0 ∧ line = name := by
  rcases Nat.eq_zero_or_pos index with rfl | hpos
  · simp [lineKey]
  · have hne := Nat.ne_of_gt hpos
    constructor
    · rintro rfl
      rw [isSignal_lineKey hne] at h
      cases h
    · exact fun hline => absurd hline.1 hne

/-- A name with lines and no counter shows all of its lines, by their numbers. -/
theorem TextBook.readName_of_counter_none {b : TextBook} {w : World} {name : String}
    (hw : w.counter? name = none) (hlines : b.lineCount name ≠ 0) :
    b.readName w name = .ok { keys := (List.range (b.lineCount name)).map (lineKey name) } := by
  have hread : b.readSequence? w name = none := by simp only [readSequence?, hw]
  simp only [readName, hread, if_pos (Nat.pos_of_ne_zero hlines)]

/-- Whatever a name reads as, a key is shown. -/
theorem TextBook.keys_ne_nil_of_readName {b : TextBook} {w : World} {name : String}
    (hw : w.counter? name = none) {reading : Reading} (h : b.readName w name = .ok reading) :
    reading.keys ≠ [] := by
  by_cases hlines : b.lineCount name = 0
  · have hread : b.readSequence? w name = none := by simp only [readSequence?, hw]
    simp only [readName, readKey, hread, hlines, Nat.lt_irrefl, if_false] at h
    cases hline : b.line name with
    | ok line =>
      rw [hline] at h
      cases h
      exact List.cons_ne_nil _ _
    | error e =>
      rw [hline] at h
      cases h
  · rw [readName_of_counter_none hw hlines] at h
    cases h
    simpa using hlines

namespace Script

namespace LineStore

variable {name : String} {s : LineStore} {keys : List String} {w : World}

/-- The keys given out for the lines of a name, in reading order. -/
def givenKeys (s : LineStore) (name : String) : List String :=
  (keysFrom name 0 (s.linesOf name)).reverse

/-- The lines of a name are stored text by text, and `keys` were given out for them in reading
order. What is stored under other names in between does not matter, nor whether it fails. -/
inductive Tells (name : String) : LineStore → List String → Prop
  /-- The name has no lines yet. -/
  | start {s : LineStore} (h : s.linesOf name = []) : Tells name s []
  /-- A text that is no sequence is stored under the name. -/
  | text {s s' : LineStore} {keys given : List String} (h : Tells name s keys) {text : List Char}
      (hplain : sequenceLiteral? (trim text) = none)
      (hadd : s.add name text = (s', .ok given)) : Tells name s' (keys ++ given.reverse)
  /-- A text is stored under another name. -/
  | other {s : LineStore} {keys : List String} (h : Tells name s keys) {name' : String}
      (hname : name' ≠ name) (text : List Char) : Tells name (s.add name' text).1 keys
  /-- A sequence of texts is stored under another name. -/
  | sequence {s : LineStore} {keys : List String} (h : Tells name s keys) {name' : String}
      (hname : name' ≠ name) {parts : List (List Char)} (hparts : parts ≠ [])
      (kind : SequenceKind) : Tells name (s.addSequence name' parts kind).1 keys

/-- Keys of lines put together are numbered on. -/
theorem keysFrom_append (name : String) (start : Nat) (lines lines' : List String) :
    (keysFrom name start (lines ++ lines')).reverse =
      (keysFrom name start lines).reverse ++
        (keysFrom name (start + lines.length) lines').reverse := by
  simp only [keysFrom, List.reverse_reverse, List.zipIdx_append, List.map_append]

/-- A line has the key of its number, unless it is a signal. -/
theorem getElem?_keysFrom (name : String) (start : Nat) (lines : List String) (i : Nat) :
    (keysFrom name start lines).reverse[i]? = lines[i]?.map fun line =>
      if isSignal line then line else lineKey name (start + i) := by
  simp only [keysFrom, List.reverse_reverse, List.getElem?_map, List.getElem?_zipIdx,
    Option.map_map]
  rfl

/-- A text that is no sequence is stored line by line. -/
theorem add_of_plain {text : List Char} (hplain : sequenceLiteral? (trim text) = none) :
    s.add name text = s.addPlain name (trim text) := by
  simp only [add, addWithin, hplain]

/-- The keys of a stored text are those of its lines, numbered on from the lines before. -/
theorem givenKeys_addPlain {s' : LineStore} {text : List Char} {given : List String}
    (h : s.addPlain name text = (s', .ok given)) :
    s'.givenKeys name = s.givenKeys name ++ given.reverse := by
  have hlines := linesOf_of_addPlain h
  rw [addPlain] at h
  split at h
  · cases h
  · obtain ⟨-, hgiven⟩ := Prod.mk.inj h
    cases hgiven
    rw [givenKeys, hlines, keysFrom_append, Nat.zero_add, givenKeys]

/-- What was given out for the texts of a name is one key for each of its lines. -/
theorem Tells.keys_eq (h : Tells name s keys) : keys = s.givenKeys name := by
  induction h with
  | start hnil => rw [givenKeys, hnil]; rfl
  | text h hplain hadd ih =>
    rw [add_of_plain hplain] at hadd
    rw [givenKeys_addPlain hadd, ih]
  | @other s keys h name' hname text ih =>
    rw [ih, givenKeys, givenKeys, (s.growsUnder_add name' text).linesOf_eq hname]
  | @sequence s keys h name' hname parts hparts kind ih =>
    rw [ih, givenKeys, givenKeys, (s.growsUnder_addSequence name' hparts kind).linesOf_eq hname]

/-- As many keys are given out as there are lines. -/
@[simp] theorem length_givenKeys : (s.givenKeys name).length = (s.linesOf name).length := by
  simp [givenKeys, keysFrom]

/-- The key of a line is the line itself where it is a signal, and else its number behind the
name. -/
theorem getElem?_givenKeys (i : Nat) : (s.givenKeys name)[i]? = (s.linesOf name)[i]?.map fun line =>
    if isSignal line then line else lineKey name i := by
  rw [givenKeys, getElem?_keysFrom, Nat.zero_add]

/-- The numbered keys are those given out as far as no line is a signal with another key. -/
theorem numbered_eq_givenKeys_iff :
    (List.range (s.linesOf name).length).map (lineKey name) = s.givenKeys name ↔
      ∀ i line, (s.linesOf name)[i]? = some line → isSignal line = true →
        line = lineKey name i := by
  rw [List.ext_getElem?_iff]
  refine forall_congr' fun i => ?_
  rw [getElem?_givenKeys, List.getElem?_map]
  cases hline : (s.linesOf name)[i]? with
  | none =>
    have hlength := List.getElem?_eq_none_iff.mp hline
    simp [hlength]
  | some line =>
    obtain ⟨hlength, -⟩ := List.getElem?_eq_some_iff.mp hline
    rw [List.getElem?_range hlength]
    by_cases hsignal : isSignal line = true
    · simp only [hsignal, Option.map_some, Option.some.injEq, if_true]
      grind
    · simp [hsignal]

/-- A name whose lines were stored text by text reads as its lines by their numbers. These are the
keys given out for them exactly when no signal is among the lines, a first line that is the name
itself aside. -/
theorem readName_eq_given_iff (h : Tells name s keys) (hw : w.counter? name = none)
    (routes : Dict DialogueNode) :
    (keys ≠ [] → (s.toBook routes).readName w name =
      .ok { keys := (List.range keys.length).map (lineKey name) }) ∧
    ((s.toBook routes).readName w name = .ok { keys } ↔
      keys ≠ [] ∧ ∀ i line, (s.linesOf name)[i]? = some line → isSignal line = true →
        i = 0 ∧ line = name) := by
  have hcount : (s.toBook routes).lineCount name = keys.length := by
    rw [h.keys_eq, length_givenKeys]
    rfl
  have hnumbered : keys ≠ [] → (s.toBook routes).readName w name =
      .ok { keys := (List.range keys.length).map (lineKey name) } := by
    intro hkeys
    have hread := TextBook.readName_of_counter_none hw (b := s.toBook routes)
      (by rwa [hcount, ne_eq, List.length_eq_zero_iff])
    rwa [hcount] at hread
  have hagree : (List.range keys.length).map (lineKey name) = keys ↔
      ∀ i line, (s.linesOf name)[i]? = some line → isSignal line = true →
        i = 0 ∧ line = name := by
    rw [h.keys_eq, length_givenKeys, numbered_eq_givenKeys_iff]
    refine forall₂_congr fun i line => ?_
    exact forall_congr' fun _ => forall_congr' fun hsignal => eq_lineKey_iff_of_isSignal hsignal
  refine ⟨hnumbered, fun hread => ?_, fun ⟨hkeys, hsignals⟩ => ?_⟩
  · have hkeys := TextBook.keys_ne_nil_of_readName hw hread
    have hread' := hnumbered hkeys
    rw [hread] at hread'
    have hsame : (List.range keys.length).map (lineKey name) = keys := by
      injection hread' with hreading
      exact (congrArg Reading.keys hreading).symm
    exact ⟨hkeys, hagree.mp hsame⟩
  · rw [hnumbered hkeys, hagree.mpr hsignals]

end LineStore

namespace Feast

open LineStore

/-- A first text of two lines. -/
def welcomed : LineStore := (LineStore.add {} "THANK" "Welcome.</>Sit down.".toList).1

/-- A sequence under another name. -/
def rung : LineStore := (welcomed.addSequence "BELL" ["Ding.".toList, "Dong.".toList] .loop).1

/-- A second text of the first name. -/
def thanked : LineStore := (rung.add "THANK" "Thank you.".toList).1

/-- The bell has rung once. -/
def world : World := ((World.empty.apply [.appendTag "BELL_1" "LOOP"]).toOption).getD .empty

/-- The thanks are told by two texts with a sequence of another name between them. -/
theorem tells : Tells "THANK" thanked ["THANK", "THANK_1", "THANK_2"] := by
  have hfirst : LineStore.add {} "THANK" "Welcome.</>Sit down.".toList =
      (welcomed, .ok ["THANK_1", "THANK"]) := by decide +kernel
  have hsecond : rung.add "THANK" "Thank you.".toList = (thanked, .ok ["THANK_2"]) := by
    decide +kernel
  have hwelcomed : Tells "THANK" welcomed ["THANK", "THANK_1"] :=
    (Tells.start rfl).text (by decide) hfirst
  have hrung : Tells "THANK" rung ["THANK", "THANK_1"] :=
    hwelcomed.sequence (by decide) (by decide) .loop
  exact hrung.text (by decide) hsecond

end Feast

open LineStore in
/-- Without signals, what was given out is read, wherever the sequences stand. -/
theorem feast_read_as_given :
    Tells "THANK" Feast.thanked ["THANK", "THANK_1", "THANK_2"] ∧
      Feast.world.counter? "THANK" = none ∧ Feast.world.counter? "BELL" = some (.loop, 1) ∧
      (Feast.thanked.toBook .empty).readName Feast.world "THANK" =
        .ok { keys := ["THANK", "THANK_1", "THANK_2"] } := by
  have hw : Feast.world.counter? "THANK" = none := by decide +kernel
  have hread := (readName_eq_given_iff Feast.tells hw .empty).1 (by decide)
  exact ⟨Feast.tells, hw, by decide +kernel, hread⟩

namespace Dragon

open LineStore

/-- A text with a signal in the middle. -/
def roared : LineStore := (LineStore.add {} "ROAR" "The dragon wakes.<$shake/> Run!".toList).1

/-- The roar is told by one text. -/
theorem tells : Tells "ROAR" roared ["ROAR", "<$shake/>", "ROAR_2"] := by
  have hadd : LineStore.add {} "ROAR" "The dragon wakes.<$shake/> Run!".toList =
      (roared, .ok ["ROAR_2", "<$shake/>", "ROAR"]) := by decide +kernel
  exact (Tells.start rfl).text (by decide) hadd

end Dragon

open LineStore in
/-- The signal of the dragon was given out under its own key and is read under a number. -/
theorem dragon_signal_numbered :
    Tells "ROAR" Dragon.roared ["ROAR", "<$shake/>", "ROAR_2"] ∧
      World.empty.counter? "ROAR" = none ∧
      isSignal "<$shake/>" = true ∧
      (Dragon.roared.toBook .empty).readName .empty "ROAR" =
        .ok { keys := ["ROAR", "ROAR_1", "ROAR_2"] } ∧
      (Dragon.roared.toBook .empty).readName .empty "ROAR" ≠
        .ok { keys := ["ROAR", "<$shake/>", "ROAR_2"] } :=
  ⟨Dragon.tells, rfl, by decide, by decide +kernel, by decide +kernel⟩

end Script

end StoryTape
