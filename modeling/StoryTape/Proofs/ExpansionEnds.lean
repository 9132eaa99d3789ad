import Mathlib.Data.Set.Finite.List
import Mathlib.Data.Set.Finite.Lattice
import Mathlib.Data.Fintype.Card
import Mathlib.Logic.Relation
import StoryTape.Proofs.Rounds

/-!
# When expansions end

From a set the run gets to its replacements, from these to theirs, and so on. There are finitely
many texts of a given length, so an expansion goes on for ever in two ways only: some set comes
back to itself, or the texts of the sets grow beyond every bound. The first way alone is enough to
go on for ever, and so is the second.
-/

namespace StoryTape

open Text

/-- There are finitely many characters. -/
instance finite_char : Finite Char := Finite.of_injective Char.ordinal Char.ordinal_injective

namespace Text

/-- No piece is longer than the pieces joined. -/
theorem length_le_length_join {separator piece : List Char} {pieces : List (List Char)}
    (h : piece ∈ pieces) : piece.length ≤ (join separator pieces).length := by
  induction pieces with
  | nil => cases h
  | cons first rest ih =>
    cases rest with
    | nil => simp_all [join]
    | cons second rest =>
      simp only [join, List.length_append]
      rcases List.mem_cons.mp h with rfl | h
      · omega
      · have hrest := ih h
        omega

/-- There are hardly more pieces than characters in the text they are joined to. -/
theorem length_pieces_le {separator : List Char} (hsep : separator ≠ [])
    (pieces : List (List Char)) : pieces.length ≤ (join separator pieces).length + 1 := by
  have hpos : 0 < separator.length := List.length_pos_iff.mpr hsep
  induction pieces with
  | nil => simp
  | cons first rest ih =>
    cases rest with
    | nil => simp
    | cons second rest =>
      simp only [join, List.length_append, List.length_cons] at ih ⊢
      omega

end Text

/-- Short lists over finitely many elements are finite in number. -/
theorem finite_short_lists {α : Type} {elements : Set α} (h : elements.Finite) (n : Nat) :
    {l : List α | l.length ≤ n ∧ ∀ a ∈ l, a ∈ elements}.Finite := by
  have : Finite elements := h.to_subtype
  refine ((List.finite_length_le elements n).image (List.map Subtype.val)).subset ?_
  rintro l ⟨hlength, hmem⟩
  exact ⟨l.attach.map fun a => ⟨a.1, hmem a.1 a.2⟩, by simpa using hlength, by simp⟩

/-- There are finitely many sets of a given written length. -/
theorem TagSet.finite_render_length_le (n : Nat) :
    {s : TagSet | s.render.length ≤ n}.Finite := by
  have htexts : {text : List Char | text.length ≤ n}.Finite := List.finite_length_le Char n
  have hinj : Function.Injective fun s : TagSet => s.raws.map String.toList := by
    intro a b h
    have hraws : a.raws = b.raws := (List.map_injective_iff.mpr fun _ _ => String.toList_inj.mp) h
    exact ext_tags ((List.map_injective_iff.mpr fun _ _ => Tag.ext_raw) hraws)
  refine ((finite_short_lists htexts (n + 1)).preimage hinj.injOn).subset fun s hs => ?_
  have hlength : (join [';'] (s.raws.map String.toList)).length ≤ n := by
    simpa [render] using hs
  have hpieces := length_pieces_le (List.cons_ne_nil ';' []) (s.raws.map String.toList)
  exact ⟨hpieces.trans (Nat.add_le_add_right hlength 1),
    fun text htext => (length_le_length_join htext).trans hlength⟩

namespace Worklist

variable {pool : TagSet}

/-- The run gets from one set to another in some number of steps. -/
def Reaches (pool : TagSet) : TagSet → TagSet → Prop := Relation.ReflTransGen (Leads pool)

/-- The run gets from one set to another in at least one step. -/
def ComesTo (pool : TagSet) : TagSet → TagSet → Prop := Relation.TransGen (Leads pool)

/-- A set leads to finitely many others. -/
theorem finite_leads (s : TagSet) : {s' | Leads pool s s'}.Finite := by
  cases hs : s.replacements pool with
  | error fault =>
    refine Set.finite_empty.subset fun s' hlead => ?_
    obtain ⟨_, _, hsets, -⟩ := hlead
    rw [hs] at hsets
    cases hsets
  | ok found =>
    refine (List.finite_toSet (found.getD [])).subset fun s' hlead => ?_
    obtain ⟨before, after, hsets, -⟩ := hlead
    rw [hs] at hsets
    obtain rfl := Except.ok.inj hsets
    simp

/-- When no endless chain starts at a set, the run gets to finitely many sets. -/
theorem finite_reaches {s : TagSet} (h : Acc (fun s' s => Leads pool s s') s) :
    {s' | Reaches pool s s'}.Finite := by
  induction h with
  | intro s _ ih =>
    refine (((finite_leads s).biUnion ih).insert s).subset fun s' hreach => ?_
    rcases Relation.ReflTransGen.cases_head hreach with rfl | ⟨next, hlead, hrest⟩
    · exact Set.mem_insert _ _
    · exact Set.mem_insert_of_mem _ (Set.mem_biUnion hlead hrest)

/-- When no endless chain starts at a set, none of the sets it gets to comes back to itself. -/
theorem not_comesTo_self {s s' : TagSet} (h : Acc (fun s' s => Leads pool s s') s)
    (hreach : Reaches pool s s') : ¬ ComesTo pool s' s' := by
  have hacc : Acc (fun b a => Leads pool a b) s' := by
    induction hreach with
    | refl => exact h
    | tail _ hlead ih => exact ih.inv hlead
  have hcomes : Acc (fun b a => ComesTo pool a b) s' :=
    Subrelation.accessible Relation.transGen_swap.mpr hacc.transGen
  clear hreach hacc
  induction hcomes with
  | intro s' _ ih => exact fun hself => ih s' hself hself

/-- A run that gets to finitely many sets, none of which comes back to itself, has no endless
chain. -/
theorem acc_of_finite_reaches {s : TagSet} (hfin : {s' | Reaches pool s s'}.Finite)
    (hcycle : ∀ s', Reaches pool s s' → ¬ ComesTo pool s' s') :
    Acc (fun s' s => Leads pool s s') s := by
  have : Finite {s' | Reaches pool s s'} := hfin.to_subtype
  let r : {s' | Reaches pool s s'} → {s' | Reaches pool s s'} → Prop := fun b a =>
    ComesTo pool a.1 b.1
  have : IsTrans _ r := ⟨fun _ _ _ hab hbc => hbc.trans hab⟩
  have : Std.Irrefl r := ⟨fun a => hcycle a.1 a.2⟩
  have hwf : WellFounded r := Finite.wellFounded_of_trans_of_irrefl r
  have key : ∀ a : {s' | Reaches pool s s'}, Acc (fun s' s => Leads pool s s') a.1 := by
    intro a
    induction a using hwf.induction with
    | _ a ih =>
      refine ⟨_, fun s' hlead => ?_⟩
      exact ih ⟨s', a.2.tail hlead⟩ (.single hlead)
  exact key ⟨s, .refl⟩

end Worklist

/-- **When expansions end.** The expansion of a set ends exactly when no set that it gets to comes
back to itself and there is a bound on the written length of the sets that it gets to. -/
theorem TagSet.expansionEnds_iff {s pool : TagSet} :
    s.ExpansionEnds pool ↔
      (∀ s', Worklist.Reaches pool s s' → ¬ Worklist.ComesTo pool s' s') ∧
        ∃ n, ∀ s', Worklist.Reaches pool s s' → s'.render.length ≤ n := by
  rw [expansionEnds_iff_halts, Worklist.halts_iff_acc]
  constructor
  · intro h
    refine ⟨fun s' => Worklist.not_comesTo_self h, ?_⟩
    have hlengths := (Worklist.finite_reaches h).image fun s' => s'.render.length
    obtain ⟨n, hn⟩ := hlengths.bddAbove
    exact ⟨n, fun s' hreach => hn ⟨s', hreach, rfl⟩⟩
  · rintro ⟨hcycle, n, hn⟩
    exact Worklist.acc_of_finite_reaches ((finite_render_length_le n).subset hn) hcycle

end StoryTape
