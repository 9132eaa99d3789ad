import StoryTape.Proofs.CounterPlaces

/-!
# Sequences keep their position

A text sequence goes on where it stood, however many other texts are read in between. The invariant
is that exactly the counters of the registered names lie in the places of the two kinds, each at the
position that the number of its own readings says; a name that is both a loop and read once is
read as a loop, and its other counter stays where it is.
-/

namespace StoryTape

open Text

/-- The line that reading number `k` of a sequence of `count` lines shows. -/
def SequenceKind.lineAt (kind : SequenceKind) (count k : Nat) : Nat :=
  match kind with
  | .loop => k % count
  | .once => min k (count - 1)

section Lines

variable {kind : SequenceKind} {count : Nat}

/-- The first reading shows the first line. -/
@[simp] theorem SequenceKind.lineAt_zero : kind.lineAt count 0 = 0 := by
  cases kind <;> simp [lineAt]

/-- Every reading shows one of the lines. -/
theorem SequenceKind.lineAt_lt (h : count ≠ 0) (k : Nat) : kind.lineAt count k < count := by
  have hpos := Nat.pos_of_ne_zero h
  cases kind with
  | loop => exact Nat.mod_lt k hpos
  | once =>
    rw [lineAt]
    omega

/-- Moving on leads from each reading to the next. -/
theorem SequenceKind.after_lineAt (k : Nat) :
    kind.after (kind.lineAt count k) count = kind.lineAt count (k + 1) := by
  cases kind with
  | loop => simp [after, lineAt]
  | once =>
    simp only [after, lineAt]
    omega

end Lines

/-- A request to read: all that a name stands for, or one key. -/
inductive ReadRequest where
  | name (text : String)
  | key (text : String)
  deriving DecidableEq, Repr

/-- The name or key asked for. -/
def ReadRequest.text : ReadRequest → String
  | .name text => text
  | .key text => text

namespace TextBook

/-- What is read for a request. -/
def answer (b : TextBook) (w : World) : ReadRequest → Checked Reading
  | .name text => b.readName w text
  | .key text => b.readKey w text

/-- Read one request after the other and apply what each reading does. A request for something
that cannot be read does nothing. -/
def readAll (b : TextBook) (w : World) : List ReadRequest → Checked World
  | [] => .ok w
  | request :: requests =>
    match b.answer w request with
    | .error _ => b.readAll w requests
    | .ok reading => do
      let w ← w.apply reading.operations
      b.readAll w requests

variable {b : TextBook} {w : World} {request : ReadRequest}

/-- Whoever asks for a sequence gets its current line. -/
theorem answer_of_sequence {reading : Reading} (h : b.readSequence? w request.text = some reading) :
    b.answer w request = .ok reading := by
  cases request <;> simp only [ReadRequest.text] at h <;> simp only [answer, readName, readKey, h]

/-- Anything else moves no counter. -/
theorem operations_of_answer (h : b.readSequence? w request.text = none) {reading : Reading}
    (hread : b.answer w request = .ok reading) : reading.operations = [] := by
  have hkey : ∀ {key reading}, b.readSequence? w key = none → b.readKey w key = .ok reading →
      reading.operations = [] := by
    intro key reading hnone hread
    rw [readKey, hnone] at hread
    cases hline : b.line key with
    | ok line =>
      rw [hline] at hread
      cases hread
      rfl
    | error e =>
      rw [hline] at hread
      cases hread
  cases request with
  | key text => exact hkey h hread
  | name text =>
    simp only [ReadRequest.text] at h
    simp only [answer, readName, h] at hread
    split at hread
    · cases hread
      rfl
    · exact hkey h hread

end TextBook

namespace Tape

/-- The name is registered as a sequence of the kind: its first counter lies in the place of the
kind. -/
def Registers (t : Tape) (kind : SequenceKind) (name : String) : Prop :=
  t.world.HoldsRaw (counterTag name 0) kind.place

instance (t : Tape) (kind : SequenceKind) (name : String) : Decidable (t.Registers kind name) :=
  inferInstanceAs (Decidable (World.HoldsRaw _ _ _))

/-- The counters of a tape are first counters of names that have lines. -/
structure Sequenced (t : Tape) : Prop where
  distinct : t.world.Distinct
  counters : ∀ (kind : SequenceKind) raw, t.world.HoldsRaw raw kind.place →
    ∃ name, raw = counterTag name 0
  countable : ∀ kind name, t.Registers kind name → Countable name ∧ t.text.lineCount name ≠ 0
  fits : ∀ name, t.text.lineCount name < wordSize

/-- Where the counter of a name stands after so many readings of each name. The counter that a
loop has among the sequences read once is never looked at. -/
def position (t : Tape) (read : String → Nat) (kind : SequenceKind) (name : String) : Nat :=
  if kind = .once ∧ t.Registers .loop name then 0
  else kind.lineAt (t.text.lineCount name) (read name)

/-- The world of a tape after so many readings of each name. -/
structure Stands (t : Tape) (w : World) (read : String → Nat) : Prop where
  distinct : w.Distinct
  counts : ∀ kind, w.Counts kind (t.Registers kind) (t.position read kind)

variable {t : Tape} {w : World} {read : String → Nat} {kind : SequenceKind} {name : String}

/-- Before anything is read all counters stand at the first line. -/
theorem Sequenced.stands (ht : t.Sequenced) : t.Stands t.world fun _ => 0 := by
  refine ⟨ht.distinct, fun kind raw => ?_⟩
  have hzero : ∀ name, t.position (fun _ => 0) kind name = 0 := fun name => by simp [position]
  simp only [hzero]
  constructor
  · intro hraw
    obtain ⟨name, rfl⟩ := ht.counters kind raw hraw
    exact ⟨name, hraw, rfl⟩
  · rintro ⟨name, hname, rfl⟩
    exact hname

/-- A counter stands at one of the lines. -/
theorem Sequenced.position_lt (ht : t.Sequenced) (hname : t.Registers kind name) :
    t.position read kind name < t.text.lineCount name := by
  obtain ⟨-, hlines⟩ := ht.countable kind name hname
  rw [position]
  split
  · exact Nat.pos_of_ne_zero hlines
  · exact SequenceKind.lineAt_lt hlines _

/-- The kind that a name is read as: loops come first. -/
def kindOf? (t : Tape) (name : String) : Option SequenceKind :=
  if t.Registers .loop name then some .loop
  else if t.Registers .once name then some .once
  else none

/-- A name is registered as the kind it is read as, and loops come first. -/
theorem registers_of_kindOf? (h : t.kindOf? name = some kind) :
    t.Registers kind name ∧ ¬ (kind = .once ∧ t.Registers .loop name) := by
  unfold kindOf? at h
  grind

/-- What a name is read as and where it stands is found in the world. -/
theorem Stands.counter?_eq (h : t.Stands w read) (ht : t.Sequenced) (name : String) :
    w.counter? name = (t.kindOf? name).map fun kind => (kind, t.position read kind name) := by
  have hposition : ∀ kind, w.positionOf? kind name =
      if t.Registers kind name then some (t.position read kind name) else none := by
    intro kind
    obtain ⟨hfound, hnone⟩ := h.distinct.positionOf?_eq (h.counts kind) (fun name' hname' =>
      ⟨(ht.countable kind name' hname').1,
        Nat.lt_trans (ht.position_lt hname') (ht.fits name')⟩)
    split
    · next hname => exact hfound hname
    · next hname => exact hnone hname
  simp only [World.counter?, List.findSome?, hposition, kindOf?]
  by_cases hloop : t.Registers .loop name
  · simp [hloop]
  · by_cases honce : t.Registers .once name <;> simp [hloop, honce]

/-- The operations that move the counter of a name on. -/
def moves (kind : SequenceKind) (name : String) (index next : Nat) : List Operation :=
  if next = index then []
  else [.removeTag (counterTag name index) kind.place, .appendTag (counterTag name next) kind.place]

/-- A registered name shows the line it stands at. -/
theorem Stands.readSequence?_eq (h : t.Stands w read) (ht : t.Sequenced)
    (hkind : t.kindOf? name = some kind) :
    t.text.readSequence? w name = some
      { keys := [lineKey name (t.position read kind name)]
        operations := moves kind name (t.position read kind name)
          (kind.after (t.position read kind name) (t.text.lineCount name)) } := by
  have hname := (registers_of_kindOf? hkind).1
  obtain ⟨-, hlines⟩ := ht.countable kind name hname
  have hlt : t.position read kind name < t.text.lineCount name := ht.position_lt hname
  have hmin : min (t.position read kind name) (t.text.lineCount name - 1) =
      t.position read kind name := by omega
  simp only [TextBook.readSequence?, h.counter?_eq ht, hkind, Option.map_some, if_neg hlines, hmin,
    moves]

/-- One more reading of a name. -/
def readOnceMore (read : String → Nat) (name : String) : String → Nat :=
  fun name' => read name' + if name' = name then 1 else 0

/-- One more reading of a name moves the counter on that it is read by, and no other. -/
theorem position_readOnceMore (read : String → Nat) (hkind : t.kindOf? name = some kind)
    {kind' : SequenceKind} {name' : String} (hregistered : t.Registers kind' name') :
    t.position (readOnceMore read name) kind' name' =
      if kind' = kind ∧ name' = name
      then kind.after (t.position read kind name) (t.text.lineCount name)
      else t.position read kind' name' := by
  obtain ⟨-, hread⟩ := registers_of_kindOf? hkind
  by_cases hsame : kind' = kind ∧ name' = name
  · obtain ⟨rfl, rfl⟩ := hsame
    simp only [position, if_neg hread, readOnceMore, if_true, and_self,
      SequenceKind.after_lineAt]
  · rw [if_neg hsame]
    by_cases hname' : name' = name
    · -- the other counter of the name is that of a loop among the sequences read once
      subst hname'
      have hother : kind' = .once ∧ t.Registers .loop name' := by
        unfold kindOf? at hkind
        cases kind <;> cases kind' <;> grind
      simp only [position, if_pos hother]
    · simp only [position, readOnceMore, if_neg hname', Nat.add_zero]

/-- Reading a name that is no sequence moves no counter. -/
theorem position_of_unread (hkind : t.kindOf? name = none) {name' : String}
    (hname' : t.Registers kind name') :
    t.position (readOnceMore read name) kind name' = t.position read kind name' := by
  have hne : name' ≠ name := by
    rintro rfl
    unfold kindOf? at hkind
    cases kind <;> grind
  simp only [position, readOnceMore, if_neg hne, Nat.add_zero]

/-- Reading a name that is registered can be applied, and moves its counter on alone. -/
theorem Stands.apply_moves (h : t.Stands w read) (ht : t.Sequenced)
    (hkind : t.kindOf? name = some kind) :
    ∃ w', w.apply (moves kind name (t.position read kind name)
        (kind.after (t.position read kind name) (t.text.lineCount name))) = .ok w' ∧
      t.Stands w' (readOnceMore read name) := by
  have hname := (registers_of_kindOf? hkind).1
  have hmoved : ∀ {kind' name'}, t.Registers kind' name' → _ := position_readOnceMore read hkind
  generalize hindex : t.position read kind name = index at hmoved ⊢
  generalize hnext : kind.after index (t.text.lineCount name) = next at hmoved ⊢
  unfold moves
  split
  · next hstays =>
    -- the counter stands at the line it would move to
    refine ⟨w, rfl, h.distinct, fun kind' raw => (h.counts kind' raw).trans ?_⟩
    refine exists_congr fun name' => and_congr_right fun hname' => ?_
    rw [hmoved hname']
    split
    · next hat => rw [hat.1, hat.2, hindex, hstays]
    · rfl
  · next hmoves =>
    have hheld := (h.counts kind (counterTag name index)).mpr ⟨name, hname, by rw [hindex]⟩
    obtain ⟨tag, hparse, hraw, -⟩ := (ht.countable kind name hname).1 next
    obtain ⟨w', happly, hdistinct, hholds⟩ :=
      h.distinct.apply_move (counterTag name index) hheld.hasPlace hparse
    refine ⟨w', happly, hdistinct, fun kind' raw => ?_⟩
    rw [hholds, hraw, sameName_place, decide_eq_true_iff, h.counts kind' raw]
    constructor
    · rintro (⟨⟨name', hname', rfl⟩, hkept⟩ | ⟨rfl, rfl⟩)
      · refine ⟨name', hname', ?_⟩
        rw [hmoved hname', if_neg]
        rintro ⟨rfl, rfl⟩
        exact hkept ⟨by rw [hindex], rfl⟩
      · exact ⟨name, hname, by rw [hmoved hname, if_pos ⟨rfl, rfl⟩]⟩
    · rintro ⟨name', hname', rfl⟩
      rw [hmoved hname']
      split
      · next hat => exact .inr ⟨by rw [hat.2], hat.1.symm⟩
      · next hother =>
        refine .inl ⟨⟨name', hname', rfl⟩, fun ⟨hsame, hkind'⟩ => hother ⟨hkind'.symm, ?_⟩⟩
        exact (counterTag_inj.mp hsame).1

/-- What a request does: nothing where nothing can be read, and else what the reading does. -/
theorem Stands.answer (h : t.Stands w read) (ht : t.Sequenced) (request : ReadRequest) :
    (∃ e, t.text.answer w request = .error e) ∧ t.Stands w (readOnceMore read request.text) ∨
      ∃ reading w', t.text.answer w request = .ok reading ∧
        w.apply reading.operations = .ok w' ∧ t.Stands w' (readOnceMore read request.text) := by
  cases hkind : t.kindOf? request.text with
  | some kind =>
    obtain ⟨w', happly, hstands⟩ := h.apply_moves ht hkind
    exact .inr ⟨_, w', TextBook.answer_of_sequence (h.readSequence?_eq ht hkind), happly, hstands⟩
  | none =>
    have hstands : t.Stands w (readOnceMore read request.text) := by
      refine ⟨h.distinct, fun kind raw => (h.counts kind raw).trans ?_⟩
      refine exists_congr fun name => and_congr_right fun hname => ?_
      rw [position_of_unread hkind hname]
    have hcounter := h.counter?_eq ht request.text
    rw [hkind, Option.map_none] at hcounter
    have hread : t.text.readSequence? w request.text = none := by
      simp only [TextBook.readSequence?, hcounter]
    cases hanswer : t.text.answer w request with
    | error e => exact .inl ⟨⟨e, rfl⟩, hstands⟩
    | ok reading =>
      refine .inr ⟨reading, w, rfl, ?_, hstands⟩
      rw [TextBook.operations_of_answer hread hanswer]
      rfl

/-- However many requests follow, every one of them is carried out, and each counter stands where
the readings of its own name have moved it. -/
theorem Stands.readAll (h : t.Stands w read) (ht : t.Sequenced) (requests : List ReadRequest) :
    ∃ w', t.text.readAll w requests = .ok w' ∧
      t.Stands w' fun name => read name + (requests.map ReadRequest.text).count name := by
  induction requests generalizing w read with
  | nil => exact ⟨w, rfl, h⟩
  | cons request requests ih =>
    have hcount : (fun name => readOnceMore read request.text name +
        (requests.map ReadRequest.text).count name) = fun name => read name +
          ((request :: requests).map ReadRequest.text).count name := by
      funext name
      simp only [readOnceMore, List.map_cons, List.count_cons, beq_iff_eq, @eq_comm _ name]
      omega
    rcases h.answer ht request with ⟨⟨e, herror⟩, hstands⟩ | ⟨reading, w', hread, happly, hstands⟩
    · obtain ⟨w', hall, hstands'⟩ := ih hstands
      refine ⟨w', ?_, hcount ▸ hstands'⟩
      rw [TextBook.readAll, herror]
      exact hall
    · obtain ⟨w'', hall, hstands'⟩ := ih hstands
      refine ⟨w'', ?_, hcount ▸ hstands'⟩
      rw [TextBook.readAll, hread]
      exact bind_eq_ok_iff.mpr ⟨w', happly, hall⟩

end Tape

/-! ### Compiled tapes -/

namespace Script

/-- The state lines of a script. -/
def stateLines (source : String) : List StateLine :=
  ((splitScript source).toOption.getD []).filterMap fun l =>
    if l.kind = .state then (parseStateLine (String.ofList l.content)).toOption else none

/-- A tape opened by the lines of a source has its state line there. -/
theorem mem_stateLines {source : String} {lines : List ScriptLine} {label : String} {w : World}
    (hlines : splitScript source = .ok lines) (h : Opens lines label w) :
    ⟨label, w⟩ ∈ stateLines source := by
  obtain ⟨l, hl, hkind, hline⟩ := h
  rw [stateLines, hlines]
  refine List.mem_filterMap.mpr ⟨l, hl, ?_⟩
  rw [if_pos hkind, hline]
  rfl

/-- What lies in the places of the counters of a sealed tape, when they were not there before. -/
theorem holdsRaw_seal {d : Draft} {t : Tape} (hseal : d.seal = .ok t)
    (hplaces : ∀ kind : SequenceKind, ¬ d.world.HasPlace kind.place) (kind : SequenceKind)
    (raw : String) :
    t.world.HoldsRaw raw kind.place ↔
      ∃ counter ∈ d.store.counters kind, ∃ tag, Tag.parse counter = .ok tag ∧ tag.raw = raw := by
  obtain ⟨w, w', hloops, honces, rfl⟩ := Draft.seal_eq_ok hseal
  have hapart : sameName loopName onceName = false := by decide
  have hapart' : sameName onceName loopName = false := by decide
  have hsame : ∀ name : String, sameName name name = true := sameName_refl
  obtain ⟨-, hfirst, hkept⟩ := World.holdsRaw_addCounters hloops (hplaces .loop)
  have hnew : ¬ w.HasPlace onceName := fun h => hplaces .once ((hkept _ hapart).mp h)
  obtain ⟨-, hsecond, -⟩ := World.holdsRaw_addCounters honces hnew
  have hnone : ¬ d.world.HoldsRaw raw kind.place := fun h => hplaces kind h.hasPlace
  rw [hsecond, hfirst]
  cases kind <;>
    simp_all [SequenceKind.place, LineStore.counters]

/-- The counters of a compiled tape are those of its sequences, when its state line declares no
place for them. -/
theorem sequenced_of_compile {source : String} {script : CompiledScript}
    (hcompile : compile source = .ok script) (hsize : 2 * source.length < wordSize) {t : Tape}
    (ht : t ∈ script.tapes)
    (hplaces : ∀ line ∈ stateLines source, line.label = t.label →
      ∀ kind : SequenceKind, ¬ line.world.HasPlace kind.place) : t.Sequenced := by
  have hfits : ∀ name, t.text.lineCount name < wordSize := fun name =>
    Nat.lt_of_le_of_lt (lineCount_le_of_compile hcompile ht name) hsize
  obtain ⟨lines, hlines, d, hd, hseal⟩ := exists_traced_of_compile hcompile ht
  obtain ⟨w, w', -, -, rfl⟩ := Draft.seal_eq_ok hseal
  have hholds := holdsRaw_seal hseal (hplaces _ (mem_stateLines hlines hd.opened) rfl)
  have hcounter : ∀ (kind : SequenceKind) raw, w'.HoldsRaw raw kind.place → ∃ name,
      raw = counterTag name 0 ∧ Countable name ∧ d.store.linesOf name ≠ [] := by
    intro kind raw hraw
    obtain ⟨counter, hcounter, tag, hparse, rfl⟩ := (hholds kind raw).mp hraw
    obtain ⟨name, rfl, hname, hlines⟩ := hd.counted kind counter hcounter
    have hcountable := countable_of_parse hname hparse
    obtain ⟨tag', hparse', hraw', -⟩ := hcountable 0
    cases hparse.symm.trans hparse'
    exact ⟨name, hraw', hcountable, hlines⟩
  refine ⟨Compiled.distinct ⟨source, script, hcompile, ht⟩, fun kind raw hraw => ?_,
    fun kind name hname => ?_, hfits⟩
  · obtain ⟨name, hraw, -⟩ := hcounter kind raw hraw
    exact ⟨name, hraw⟩
  · obtain ⟨name', hsame, hcountable, hlines⟩ := hcounter kind _ hname
    obtain ⟨rfl, -⟩ := counterTag_inj.mp hsame
    exact ⟨hcountable, fun hzero => hlines (List.length_eq_zero_iff.mp hzero)⟩

/-- **Text sequences keep their position.** In a compiled tape whose state line declares no place
for counters, any requests can be read one after the other, from the world the tape starts in.
After them, a name that is registered as a loop shows the line that the number of its own readings
says, around and around, and one registered among the sequences read once only shows the lines up
to the last. Readings of other names do not count. -/
theorem sequences_keep_position {source : String} {script : CompiledScript}
    (hcompile : compile source = .ok script) (hsize : 2 * source.length < wordSize) {t : Tape}
    (ht : t ∈ script.tapes)
    (hplaces : ∀ line ∈ stateLines source, line.label = t.label →
      ∀ kind : SequenceKind, ¬ line.world.HasPlace kind.place)
    (requests : List ReadRequest) :
    ∃ w, t.text.readAll t.world requests = .ok w ∧
      ∀ (kind : SequenceKind) (request : ReadRequest), t.Registers kind request.text →
        (kind = .once → ¬ t.Registers .loop request.text) →
        0 < t.text.lineCount request.text ∧
          ∃ reading w', t.text.answer w request = .ok reading ∧
            reading.keys = [lineKey request.text (kind.lineAt (t.text.lineCount request.text)
              ((requests.map ReadRequest.text).count request.text))] ∧
            w.apply reading.operations = .ok w' := by
  have hsequenced := sequenced_of_compile hcompile hsize ht hplaces
  obtain ⟨w, hall, hstands⟩ := hsequenced.stands.readAll hsequenced requests
  refine ⟨w, hall, fun kind request hname honce => ?_⟩
  have hkind : t.kindOf? request.text = some kind := by
    unfold Tape.kindOf?
    cases kind <;> grind
  obtain ⟨w', happly, -⟩ := hstands.apply_moves hsequenced hkind
  have hread := TextBook.answer_of_sequence (hstands.readSequence?_eq hsequenced hkind)
  have hlines := (hsequenced.countable kind _ hname).2
  refine ⟨Nat.pos_of_ne_zero hlines, _, w', hread, ?_, happly⟩
  have hloop : ¬ (kind = .once ∧ t.Registers .loop request.text) := fun h => honce h.1 h.2
  simp only [Tape.position, if_neg hloop, Nat.zero_add]

namespace Tower

/-- A loop, a sequence that is read once under a name that looks like a line of the loop, and one
that is both. -/
def source : String :=
  "== TOWER [TOWER, bell]\n## RING Ding.|Dong.|Boom.\n## RING_1 Low.&High.\n" ++
  "## TOLL (?<(!<One.>)><Two.>)\n## HOUR Midnight."

/-- Requests for all of them in turn, and for a text that is not there. -/
def requests : List ReadRequest :=
  [.name "RING", .key "RING_1", .name "HOUR", .key "RING", .name "BELL", .name "TOLL",
    .key "RING_1", .name "RING", .key "RING"]

end Tower

/-- The bell has been rung four times, and starts again. -/
theorem tower_rings_on :
    ∃ script t w, compile Tower.source = .ok script ∧ t ∈ script.tapes ∧
      t.Registers .loop "RING" ∧ t.Registers .once "RING_1" ∧ ¬ t.Registers .loop "RING_1" ∧
      t.Registers .loop "TOLL" ∧ t.Registers .once "TOLL" ∧
      t.text.readAll t.world Tower.requests = .ok w ∧
      (∃ reading, t.text.readName w "RING" = .ok reading ∧ reading.keys = ["RING_1"]) ∧
      (∃ reading, t.text.readKey w "RING_1" = .ok reading ∧ reading.keys = ["RING_1_1"]) ∧
      ∃ reading, t.text.readName w "TOLL" = .ok reading ∧ reading.keys = ["TOLL_1"] := by
  have hfacts : (compile Tower.source).toOption.map (fun s => s.tapes.map fun t =>
      ((["RING", "RING_1", "TOLL"].map fun name =>
        (decide (t.Registers .loop name), decide (t.Registers .once name))),
        ["RING", "RING_1", "TOLL"].map t.text.lineCount)) =
      some [([(true, false), (false, true), (true, true)], [3, 2, 2])] := by decide +kernel
  obtain ⟨script, hcompile, htapes⟩ := exists_script_of_map hfacts
  obtain ⟨t, ht, hboth⟩ := List.map_eq_singleton_iff.mp htapes
  simp only [List.map_cons, List.map_nil, Prod.mk.injEq, List.cons.injEq, and_true,
    decide_eq_true_eq, decide_eq_false_iff_not] at hboth
  obtain ⟨⟨⟨hring, -⟩, ⟨hlow, hlow'⟩, htoll, htoll'⟩, hrings, hlows, htolls⟩ := hboth
  have hmem : t ∈ script.tapes := ht ▸ List.mem_cons_self
  have hplaces : ∀ line ∈ stateLines Tower.source,
      ¬ line.world.HasPlace loopName ∧ ¬ line.world.HasPlace onceName := by decide +kernel
  obtain ⟨w, hall, hread⟩ := sequences_keep_position hcompile (by decide +kernel) hmem
    (fun line hline _ kind => by
      cases kind
      exacts [(hplaces line hline).1, (hplaces line hline).2])
    Tower.requests
  obtain ⟨-, ring, -, hring', hringKeys, -⟩ := hread .loop (.name "RING") hring nofun
  obtain ⟨-, low, -, hlow₁, hlowKeys, -⟩ := hread .once (.key "RING_1") hlow' fun _ => hlow
  obtain ⟨-, toll, -, htoll₁, htollKeys, -⟩ := hread .loop (.name "TOLL") htoll nofun
  simp only [ReadRequest.text] at hringKeys hlowKeys htollKeys
  rw [hrings] at hringKeys
  rw [hlows] at hlowKeys
  rw [htolls] at htollKeys
  exact ⟨script, t, w, hcompile, hmem, hring, hlow', hlow, htoll, htoll', hall,
    ⟨ring, hring', hringKeys⟩, ⟨low, hlow₁, hlowKeys⟩, toll, htoll₁, htollKeys⟩

end Script

end StoryTape
