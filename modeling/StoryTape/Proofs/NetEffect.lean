import StoryTape.Proofs.WorldContents

/-!
# The net effect of a list of operations

Operations are applied one after the other and a location may vanish and come back on the way.
When no text is taken out of a place after it was put there, the order stops mattering: a text
lies in a place at the end exactly when it was put there, or lay there and was not taken out.
-/

namespace StoryTape

open Text

/-- Some operation puts the text into the place. -/
def Appends (ops : List Operation) (raw place : String) : Prop :=
  ∃ name, .appendTag raw name ∈ ops ∧ sameName name place = true

/-- Some operation takes the text out of the place. -/
def Removes (ops : List Operation) (raw place : String) : Prop :=
  ∃ name, .removeTag raw name ∈ ops ∧ sameName name place = true

/-- A tag is put somewhere by the first operation or by the others. -/
theorem appends_cons (op : Operation) (ops : List Operation) {raw place : String} :
    Appends (op :: ops) raw place ↔ Appends [op] raw place ∨ Appends ops raw place := by
  simp only [Appends, List.mem_cons, List.not_mem_nil, or_false, or_and_right, exists_or]

/-- A tag is taken out by the first operation or by the others. -/
theorem removes_cons (op : Operation) (ops : List Operation) {raw place : String} :
    Removes (op :: ops) raw place ↔ Removes [op] raw place ∨ Removes ops raw place := by
  simp only [Removes, List.mem_cons, List.not_mem_nil, or_false, or_and_right, exists_or]

/-- Appending puts its own text into its own place. -/
theorem appends_appendTag {text name raw place : String} :
    Appends [.appendTag text name] raw place ↔ raw = text ∧ sameName name place = true := by
  constructor
  · rintro ⟨name', hmem, hname'⟩
    cases List.mem_singleton.mp hmem
    exact ⟨rfl, hname'⟩
  · rintro ⟨rfl, hname⟩
    exact ⟨name, List.mem_singleton_self _, hname⟩

/-- Removing takes its own text out of its own place. -/
theorem removes_removeTag {text name raw place : String} :
    Removes [.removeTag text name] raw place ↔ raw = text ∧ sameName name place = true := by
  constructor
  · rintro ⟨name', hmem, hname'⟩
    cases List.mem_singleton.mp hmem
    exact ⟨rfl, hname'⟩
  · rintro ⟨rfl, hname⟩
    exact ⟨name, List.mem_singleton_self _, hname⟩

/-- No text is taken out of a place after it was put there. -/
def KeepsAppended (ops : List Operation) : Prop :=
  ops.Pairwise fun a b => ∀ raw name name',
    a = .appendTag raw name → b = .removeTag raw name' → sameName name name' = false

/-- Nothing is taken out of a place after a tag was put there. -/
def TakesFirst (ops : List Operation) : Prop :=
  ops.Pairwise fun a b => ∀ text text' name name',
    a = .appendTag text name → b = .removeTag text' name' → sameName name name' = false

/-- Where all is taken before anything is put, what is put stays. -/
theorem TakesFirst.keepsAppended {ops : List Operation} (h : TakesFirst ops) : KeepsAppended ops :=
  h.imp fun hab raw name name' hput htake => hab raw raw name name' hput htake

/-- The texts put somewhere have no blanks at their ends. -/
def AppendsTrimmed (ops : List Operation) : Prop :=
  ∀ raw name, .appendTag raw name ∈ ops → trim raw.toList = raw.toList

/-- The scene one operation leads to. -/
def Operation.sceneAfter (scene : String) : Operation → String
  | .goto target => target
  | _ => scene

/-- The scene that operations lead to, one after the other. -/
def sceneAfter (scene : String) (ops : List Operation) : String :=
  ops.foldl Operation.sceneAfter scene

/-- What operations do to what lies where, read off the list. -/
def NetEffect (w : World) (ops : List Operation) (w' : World) : Prop :=
  ∀ raw place, w'.HoldsRaw raw place ↔
    Appends ops raw place ∨ (w.HoldsRaw raw place ∧ ¬ Removes ops raw place)

/-- The scene is led on by operations one after the other. -/
theorem sceneAfter_append (scene : String) (ops ops' : List Operation) :
    sceneAfter scene (ops ++ ops') = sceneAfter (sceneAfter scene ops) ops' :=
  List.foldl_append

/-- Without a change of scene the scene stays. -/
theorem sceneAfter_eq_self {scene : String} {ops : List Operation}
    (h : ∀ target, .goto target ∉ ops) : sceneAfter scene ops = scene := by
  induction ops generalizing scene with
  | nil => rfl
  | cons op ops ih =>
    have hrest : ∀ target, Operation.goto target ∉ ops :=
      fun target hmem => h target (List.mem_cons_of_mem _ hmem)
    have hop : Operation.sceneAfter scene op = scene := by
      cases op with
      | goto target => exact absurd List.mem_cons_self (h target)
      | _ => rfl
    show sceneAfter (Operation.sceneAfter scene op) ops = scene
    rw [hop, ih hrest]

namespace World

variable {w w' : World} {scene scene' : String}

/-- Everything one operation can do. -/
theorem applyOne_cases {op : Operation} (h : w.applyOne scene op = .ok (w', scene')) :
    scene' = op.sceneAfter scene ∧
      ((∃ tag name ls, op = .removeTag tag name ∧ takeTag tag name w.locations = some ls ∧
          w' = ⟨ls⟩) ∨
        (∃ text name tag, op = .appendTag text name ∧ Tag.parse text = .ok tag ∧
          w' = ⟨putTag tag name w.locations⟩) ∨
        ((∀ tag name, op ≠ .removeTag tag name) ∧ (∀ text name, op ≠ .appendTag text name) ∧
          w' = w)) := by
  cases op with
  | removeTag tag name =>
    simp only [applyOne] at h
    split at h
    · cases h
    · next ls htake =>
      cases h
      exact ⟨rfl, .inl ⟨tag, name, ls, rfl, htake, rfl⟩⟩
  | appendTag text name =>
    simp only [applyOne] at h
    cases hparse : Tag.parse text with
    | error e => rw [hparse] at h; cases h
    | ok tag =>
      rw [hparse] at h
      cases h
      exact ⟨rfl, .inr (.inl ⟨text, name, tag, rfl, hparse, rfl⟩)⟩
  | _ =>
    cases h
    exact ⟨rfl, .inr (.inr ⟨nofun, nofun, rfl⟩)⟩

/-- A list of operations applies when its first operation and then the others do. -/
theorem applyInScene_cons {op : Operation} {ops : List Operation}
    (h : w.applyInScene scene (op :: ops) = .ok (w', scene')) :
    ∃ w₁ scene₁, w.applyOne scene op = .ok (w₁, scene₁) ∧
      w₁.applyInScene scene₁ ops = .ok (w', scene') := by
  obtain ⟨⟨w₁, scene₁⟩, hop, hrest⟩ := bind_eq_ok_iff.mp h
  exact ⟨w₁, scene₁, hop, hrest⟩

/-- The scene after a turn is the last one asked for. -/
theorem scene_of_applyInScene {ops : List Operation}
    (h : w.applyInScene scene ops = .ok (w', scene')) : scene' = sceneAfter scene ops := by
  induction ops generalizing w scene with
  | nil => cases h; rfl
  | cons op ops ih =>
    obtain ⟨w₁, scene₁, hop, hrest⟩ := applyInScene_cons h
    rw [ih hrest, (applyOne_cases hop).1]
    rfl

/-- One operation keeps names distinct. -/
theorem Distinct.applyOne {op : Operation} (hw : w.Distinct)
    (h : w.applyOne scene op = .ok (w', scene')) : w'.Distinct := by
  obtain ⟨-, ⟨tag, name, ls, -, htake, rfl⟩ | ⟨text, name, tag, -, -, rfl⟩ | ⟨-, -, rfl⟩⟩ :=
    applyOne_cases h
  · exact distinctNames_takeTag hw htake
  · exact distinctNames_putTag hw
  · exact hw

/-- A list of operations keeps names distinct. -/
theorem Distinct.applyInScene {ops : List Operation} (hw : w.Distinct)
    (h : w.applyInScene scene ops = .ok (w', scene')) : w'.Distinct := by
  induction ops generalizing w scene with
  | nil =>
    cases h
    exact hw
  | cons op ops ih =>
    obtain ⟨w₁, scene₁, hop, hrest⟩ := applyInScene_cons h
    exact ih (hw.applyOne hop) hrest

/-- What one operation does to what lies where. -/
theorem Distinct.holdsRaw_applyOne {op : Operation} (hw : w.Distinct)
    (h : w.applyOne scene op = .ok (w', scene')) (htrim : AppendsTrimmed [op]) :
    NetEffect w [op] w' := by
  intro raw place
  obtain ⟨-, ⟨tag, name, ls, rfl, htake, rfl⟩ | ⟨text, name, tag, rfl, hparse, rfl⟩ |
    ⟨hremove, happend, rfl⟩⟩ := applyOne_cases h
  · rw [holdsRaw_takeTag hw htake]
    simp [Appends, Removes]
  · have hraw : tag.raw = text := by
      rw [Tag.raw_of_parse hparse, htrim text name (by simp), String.ofList_toList]
    rw [holdsRaw_putTag, hraw, appends_appendTag]
    simp [Removes, or_comm]
  · have hr : ∀ name, Operation.removeTag raw name ≠ op := fun name he => hremove raw name he.symm
    have ha : ∀ name, Operation.appendTag raw name ≠ op := fun name he => happend raw name he.symm
    simp [Appends, Removes, hr, ha]

/-- When no text is taken out again, applying operations has the net effect that the list
shows. -/
theorem Distinct.netEffect {ops : List Operation} (hw : w.Distinct) (hkeeps : KeepsAppended ops)
    (htrim : AppendsTrimmed ops) (h : w.applyInScene scene ops = .ok (w', scene')) :
    NetEffect w ops w' := by
  induction ops generalizing w scene with
  | nil =>
    cases h
    simp [NetEffect, Appends, Removes]
  | cons op ops ih =>
    obtain ⟨w₁, scene₁, hop, hrest⟩ := applyInScene_cons h
    obtain ⟨hfirst, hothers⟩ := List.pairwise_cons.mp hkeeps
    have htrimOp : AppendsTrimmed [op] := fun raw name hmem =>
      htrim raw name (by rw [List.mem_singleton.mp hmem]; exact List.mem_cons_self)
    have htrimRest : AppendsTrimmed ops := fun raw name hmem =>
      htrim raw name (List.mem_cons_of_mem _ hmem)
    have hstep := hw.holdsRaw_applyOne hop htrimOp
    have hrun := ih (hw.applyOne hop) hothers htrimRest hrest
    intro raw place
    -- what the first operation puts somewhere is not among what the others take out
    have hkept : Appends [op] raw place → ¬ Removes ops raw place := by
      rintro ⟨name, hmem, hname⟩ ⟨name', hmem', hname'⟩
      have hdiff := hfirst _ hmem' raw name name' (List.mem_singleton.mp hmem).symm rfl
      rw [sameName_trans hname (sameName_symm hname')] at hdiff
      cases hdiff
    rw [hrun raw place, hstep raw place, appends_cons op ops, removes_cons op ops]
    constructor
    · rintro (h | ⟨h | ⟨h, hno⟩, hnot⟩)
      · exact .inl (.inr h)
      · exact .inl (.inl h)
      · exact .inr ⟨h, not_or.mpr ⟨hno, hnot⟩⟩
    · rintro ((h | h) | ⟨h, hno⟩)
      · exact .inr ⟨.inl h, hkept h⟩
      · exact .inl h
      · exact .inr ⟨.inr ⟨h, (not_or.mp hno).1⟩, (not_or.mp hno).2⟩

end World

end StoryTape
