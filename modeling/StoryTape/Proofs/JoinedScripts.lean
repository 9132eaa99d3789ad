import StoryTape.Proofs.SideBySide

/-!
# Scripts put together

Nothing that a script leaves open gets into the script that follows it. The dialogue and the tape
that are open at its end are closed by the first state line after it, just as they would be closed
at the end of the script, and only lines without effect can stand before that line. So two scripts
that compile, and whose tapes share no label and no node name, compile together: to the tapes of the
first and then those of the second.
-/

namespace StoryTape.Script

open Text

namespace Compilation

variable {c c' d d' base : Compilation} {l : ScriptLine}

/-! ### What is open at the end of a script -/

/-- The second compilation is the first with its dialogue closed and its tape sealed. -/
def Settled (c c' : Compilation) : Prop :=
  ∃ c₁, c.closeOutline = .ok c₁ ∧ c₁.sealDraft = .ok c'

/-- What is settled has no tape open. -/
theorem Settled.draft_eq_none (h : Settled c c') : c'.draft = none := by
  obtain ⟨_, -, hseal⟩ := h
  exact draft_sealDraft hseal

/-- What is settled has no dialogue open. -/
theorem Settled.outline_eq_none (h : Settled c c') : c'.outline = none := by
  obtain ⟨c₁, hclose, hseal⟩ := h
  exact (outline_sealDraft hseal).trans (outline_closeOutline hclose)

/-- Where no dialogue is open, closing one does nothing. -/
theorem closeOutline_of_outline_eq_none (h : c.outline = none) : c.closeOutline = .ok c :=
  closeOutline_eq_ok_iff.mpr (.inl ⟨h, rfl⟩)

/-- Where no tape is open, sealing one does nothing. -/
theorem sealDraft_of_draft_eq_none (h : c.draft = none) : c.sealDraft = .ok c :=
  sealDraft_eq_ok_iff.mpr (.inl ⟨h, rfl⟩)

/-- A compilation that finishes gives what it has once it is settled. -/
theorem finish_eq_ok_iff_settled {script : CompiledScript} :
    c.finish = .ok script ↔ ∃ c', Settled c c' ∧ script = ⟨c'.tapes, c'.parts, c'.index⟩ := by
  rw [finish_eq_ok_iff]
  constructor
  · rintro ⟨c₁, c₂, hclose, hseal, hscript⟩
    exact ⟨c₂, ⟨c₁, hclose, hseal⟩, hscript⟩
  · rintro ⟨c₂, ⟨c₁, hclose, hseal⟩, hscript⟩
    exact ⟨c₁, c₂, hclose, hseal, hscript⟩

/-- Sealing a tape has nothing to do with the parts noted. -/
theorem sealDraft_note (h : c.sealDraft = .ok d) (number : Nat) (part : Part) :
    (c.note number part).sealDraft = .ok (d.note number part) := by
  rcases sealDraft_eq_ok_iff.mp h with ⟨hnone, rfl⟩ | ⟨draft, t, hdraft, hseal, rfl⟩
  · exact sealDraft_of_draft_eq_none hnone
  · exact sealDraft_eq_ok_iff.mpr (.inr ⟨draft, t, hdraft, hseal, rfl⟩)

/-- The two compilations go on in the same way: they are one, or the second is settled. -/
def GoesOnAs (c c' : Compilation) : Prop := c = c' ∨ Settled c c'

/-- A line without effect leaves the tape open, the first state line seals it, and no other line is
read without an open tape. -/
theorem exists_readContent_of_sealDraft (hopen : c.outline = none) (hseal : c.sealDraft = .ok c')
    (hread : c'.readContent l = .ok d') :
    ∃ d, c.readContent l = .ok d ∧ GoesOnAs d d' := by
  have hnone : c'.draft = none := draft_sealDraft hseal
  have hclose := closeOutline_of_outline_eq_none hopen
  rw [readContent] at hread
  unfold readContent
  cases hkind : l.kind <;> simp only [hkind] at hread ⊢
  case state =>
    obtain ⟨c₂, line, hseal', hline, hnew, rfl⟩ := readState_eq_ok_iff.mp hread
    obtain rfl : c' = c₂ := Except.ok.inj ((sealDraft_of_draft_eq_none hnone).symm.trans hseal')
    exact ⟨_, readState_eq_ok_iff.mpr ⟨c', line, hseal, hline, hnew, rfl⟩, .inl rfl⟩
  case rule =>
    obtain ⟨_, _, _, hdraft, -⟩ := readRule_eq_ok_iff.mp hread
    cases hnone.symm.trans hdraft
  case route =>
    obtain ⟨_, _, _, _, _, _, hdraft, -⟩ := readRoute_eq_ok_iff.mp hread
    cases hnone.symm.trans hdraft
  case text =>
    obtain ⟨_, _, _, _, hdraft, -⟩ := readText_eq_ok_iff.mp hread
    cases hnone.symm.trans hdraft
  case comment =>
    cases hread
    refine ⟨_, rfl, .inr ⟨c.note l.number (.comment (String.ofList l.content)), ?_, ?_⟩⟩
    · exact closeOutline_of_outline_eq_none hopen
    · exact sealDraft_note hseal _ _
  all_goals
    cases hread
    exact ⟨c, rfl, .inr ⟨c, hclose, hseal⟩⟩

/-- A line that a settled compilation takes is taken before it is settled, too. -/
theorem GoesOnAs.readLine (h : GoesOnAs c c') (hread : c'.readLine l = .ok d') :
    ∃ d, c.readLine l = .ok d ∧ GoesOnAs d d' := by
  rcases h with rfl | h
  · exact ⟨d', hread, .inl rfl⟩
  have hopen := h.outline_eq_none
  obtain ⟨c₁, hclose, hseal⟩ := h
  by_cases hkind : l.kind = .route
  · obtain ⟨_, _, _, _, _, _, hdraft, -⟩ :=
      readRoute_eq_ok_iff.mp ((readLine_route hkind).mp hread)
    cases (draft_sealDraft hseal).symm.trans hdraft
  · obtain ⟨c₂, hclose', hcontent⟩ := (readLine_of_ne_route hkind).mp hread
    obtain rfl : c' = c₂ :=
      Except.ok.inj ((closeOutline_of_outline_eq_none hopen).symm.trans hclose')
    obtain ⟨d, hd, hgoes⟩ :=
      exists_readContent_of_sealDraft (outline_closeOutline hclose) hseal hcontent
    exact ⟨d, (readLine_of_ne_route hkind).mpr ⟨c₁, hclose, hd⟩, hgoes⟩

/-- Compilations that go on in the same way read the same lines. -/
theorem GoesOnAs.readLines (h : GoesOnAs c c') {ls : List ScriptLine}
    (hread : ls.foldlM Compilation.readLine c' = .ok d') :
    ∃ d, ls.foldlM Compilation.readLine c = .ok d ∧ GoesOnAs d d' := by
  induction ls generalizing c c' with
  | nil =>
    cases hread
    exact ⟨c, rfl, h⟩
  | cons l ls ih =>
    rw [List.foldlM_cons] at hread
    obtain ⟨c₁', hfirst', hrest'⟩ := bind_eq_ok_iff.mp hread
    obtain ⟨c₁, hfirst, h₁⟩ := h.readLine hfirst'
    obtain ⟨d, hrest, hd⟩ := ih h₁ hrest'
    rw [List.foldlM_cons]
    exact ⟨d, bind_eq_ok_iff.mpr ⟨c₁, hfirst, hrest⟩, hd⟩

/-- Compilations that go on in the same way end in the same script. -/
theorem GoesOnAs.finish (h : GoesOnAs c c') {script : CompiledScript}
    (hc : c'.finish = .ok script) : c.finish = .ok script := by
  rcases h with rfl | h
  · exact hc
  · obtain ⟨c₁, c₂, hclose, hseal, rfl⟩ := finish_eq_ok_iff.mp hc
    obtain rfl : c' = c₁ :=
      Except.ok.inj ((closeOutline_of_outline_eq_none h.outline_eq_none).symm.trans hclose)
    obtain rfl : c' = c₂ :=
      Except.ok.inj ((sealDraft_of_draft_eq_none h.draft_eq_none).symm.trans hseal)
    exact finish_eq_ok_iff_settled.mpr ⟨c', h, rfl⟩

/-- A compilation starts side by side with a settled one. -/
theorem Settled.beside (h : Settled c base) (move : Nat → Nat) : Beside base [] move {} base where
  tapes := (List.append_nil _).symm
  labels := (List.append_nil _).symm
  routeNames := (List.append_nil _).symm
  parts := ⟨[], rfl, (List.append_nil _).symm⟩
  index value := by simp [TagIndex.empty]
  draft := h.draft_eq_none
  outline := h.outline_eq_none

/-- What is settled remembers the names of its tapes. -/
theorem Settled.accounted (h : Settled c c') (hc : c.Accounted) : c'.Accounted := by
  obtain ⟨c₁, hclose, hseal⟩ := h
  exact (hc.closeOutline hclose).sealDraft hseal

/-- The labels of a settled compilation are those of its tapes. -/
theorem Settled.labels (h : Settled c c') (hc : c.Accounted) :
    c'.labels = c'.tapes.map fun t => lowerText t.label := by
  have hlabels := (h.accounted hc).labels
  rw [h.draft_eq_none] at hlabels
  simpa using hlabels

/-- So are the names of its nodes. -/
theorem Settled.mem_routeNames_iff (h : Settled c c') (hc : c.Accounted) {name : String} :
    name ∈ c'.routeNames ↔ ∃ t ∈ c'.tapes, name ∈ t.text.routes.names := by
  have hnames := (h.accounted hc).routeNames name
  rw [h.draft_eq_none] at hnames
  simpa using hnames

/-- What is apart from a settled compilation is apart from it before it is settled, too. -/
theorem Settled.apart_of_apart (h : Settled c c') (hapart : Apart base c') :
    Apart base c ∧ ∀ d, c.closeOutline = .ok d → Apart base d := by
  obtain ⟨c₁, hclose, hseal⟩ := h
  obtain ⟨hlabels₁, hnames₁⟩ := names_sealDraft hseal
  have hclosed : Apart base c₁ :=
    hapart.of_subset (hlabels₁ ▸ List.Subset.refl _) (hnames₁ ▸ List.Subset.refl _)
  obtain ⟨hlabels, hnames⟩ := names_closeOutline hclose
  refine ⟨hclosed.of_subset (hlabels ▸ List.Subset.refl _) hnames, fun d hd => ?_⟩
  obtain rfl : c₁ = d := Except.ok.inj (hclose.symm.trans hd)
  exact hclosed

end Compilation

/-- No tape of one list has the label or a node name of a tape of the other. -/
structure Strangers (ts ts' : List Tape) : Prop where
  labels : ∀ t ∈ ts, ∀ t' ∈ ts', lowerText t.label ≠ lowerText t'.label
  nodes : ∀ t ∈ ts, ∀ t' ∈ ts', ∀ name ∈ t.text.routes.names, name ∉ t'.text.routes.names

instance (ts ts' : List Tape) : Decidable (Strangers ts ts') :=
  decidable_of_iff
    ((∀ t ∈ ts, ∀ t' ∈ ts', lowerText t.label ≠ lowerText t'.label) ∧
      ∀ t ∈ ts, ∀ t' ∈ ts', ∀ name ∈ t.text.routes.names, name ∉ t'.text.routes.names)
    ⟨fun h => ⟨h.1, h.2⟩, fun h => ⟨h.labels, h.nodes⟩⟩

/-- Settled compilations whose tapes are strangers have taken different names. -/
theorem Compilation.Settled.apart {c c' d d' : Compilation} (h : Settled c c')
    (hc : c.Accounted) (h' : Settled d d') (hd : d.Accounted)
    (hstrange : Strangers c'.tapes d'.tapes) : Apart c' d' where
  labels label hlabel hbase := by
    rw [h'.labels hd, List.mem_map] at hlabel
    rw [h.labels hc, List.mem_map] at hbase
    obtain ⟨t', ht', rfl⟩ := hlabel
    obtain ⟨t, ht, hsame⟩ := hbase
    exact hstrange.labels t ht t' ht' hsame
  routeNames name hname hbase := by
    obtain ⟨t', ht', hnode'⟩ := (h'.mem_routeNames_iff hd).mp hname
    obtain ⟨t, ht, hnode⟩ := (h.mem_routeNames_iff hc).mp hbase
    exact hstrange.nodes t ht t' ht' name hnode hnode'

open Compilation in
/-- Scripts that compile, and whose tapes are strangers, compile together. -/
theorem compile_append {a b : String} {as bs : CompiledScript}
    (hend : a.toList.getLast? = some '\n') (ha : compile a = .ok as) (hb : compile b = .ok bs)
    (hstrange : Strangers as.tapes bs.tapes) :
    ∃ script, compile (a ++ b) = .ok script ∧ script.tapes = as.tapes ++ bs.tapes ∧
      script.parts = as.parts ++
        bs.parts.map (fun (number, part) => (number + a.toList.count '\n', part)) ∧
      ∀ value, script.index.contains value =
        (as.index.contains value || bs.index.contains value) := by
  obtain ⟨als, ca, hals, hca, hfinish⟩ := compile_eq_ok_iff.mp ha
  obtain ⟨bls, cb, hbls, hcb, hfinish'⟩ := compile_eq_ok_iff.mp hb
  obtain ⟨base, hbase, rfl⟩ := finish_eq_ok_iff_settled.mp hfinish
  obtain ⟨last, hlast, rfl⟩ := finish_eq_ok_iff_settled.mp hfinish'
  have hapart : Apart base last :=
    hbase.apart (accounted_readLines hca) hlast (accounted_readLines hcb) hstrange
  obtain ⟨hopen, hclosed⟩ := hlast.apart_of_apart hapart
  -- From the settled first script the second goes its own way beside it; not settled, the first
  -- goes on in the same way.
  obtain ⟨d', hd', hbeside⟩ := (hbase.beside (· + a.toList.count '\n')).readLines hcb hopen
  obtain ⟨script, hscript, htapes, ⟨later, hlater, hparts⟩, hindex⟩ :=
    hbeside.finish hfinish' hclosed
  obtain ⟨d, hd, hgoes⟩ := GoesOnAs.readLines (.inr hbase) hd'
  refine ⟨script, ?_, htapes, ?_, fun value => ?_⟩
  · refine compile_eq_ok_iff.mpr ⟨_, d, splitScript_append hend hals hbls, ?_, hgoes.finish hscript⟩
    rw [List.foldlM_append]
    exact bind_eq_ok_iff.mpr ⟨ca, hca, hd⟩
  · rw [List.nil_append] at hlater
    rw [hparts, hlater]
  · rw [Bool.eq_iff_iff, Bool.or_eq_true]
    simpa [TagIndex.contains] using hindex value

namespace Tales

/-- A script that ends in the middle of a dialogue. -/
def court : String :=
  "== COURT [HALL, duke]\n++ -[duke]->() #TALK Hm?\n-- [Bow] You bow.\n"

/-- A script that opens with a comment over two lines. -/
def yard : String :=
  "// The court is over\nand out we go.\n== YARD [YARD, duke]\n" ++
  "++ -[duke]->() #ASK Well?\n-- [No] Never."

end Tales

/-- The yard follows the court. -/
theorem court_and_yard_compile :
    Tales.court.toList.getLast? = some '\n' ∧
      ∃ as bs, compile Tales.court = .ok as ∧ compile Tales.yard = .ok bs ∧
        Strangers as.tapes bs.tapes ∧
        ∃ script, compile (Tales.court ++ Tales.yard) = .ok script ∧
          script.tapes = as.tapes ++ bs.tapes ∧
          script.parts = as.parts ++ bs.parts.map (fun (number, part) =>
            (number + Tales.court.toList.count '\n', part)) ∧
          ∀ value, script.index.contains value =
            (as.index.contains value || bs.index.contains value) := by
  have hend : Tales.court.toList.getLast? = some '\n' := by decide
  have hstrange : (compile Tales.court).toOption.any (fun as =>
      (compile Tales.yard).toOption.any fun bs =>
        decide (Strangers as.tapes bs.tapes)) = true := by
    decide +kernel
  cases ha : compile Tales.court with
  | error e => simp [ha, Except.toOption] at hstrange
  | ok as =>
    cases hb : compile Tales.yard with
    | error e => simp [ha, hb, Except.toOption] at hstrange
    | ok bs =>
      have htapes : Strangers as.tapes bs.tapes := by
        simpa [ha, hb, Except.toOption] using hstrange
      exact ⟨hend, as, bs, rfl, rfl, htapes, compile_append hend ha hb htapes⟩

end StoryTape.Script
