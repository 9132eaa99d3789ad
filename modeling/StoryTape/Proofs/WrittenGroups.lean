import StoryTape.Proofs.CounterTags
import StoryTape.Proofs.Pieces
import StoryTape.Proofs.SetChoices

/-!
# Groups of tags as they are written

A token ends where a character stands that it cannot go on into, such as a semicolon or a closing
bracket, so it is read back from its own text in front of any text that opens with one. The tokens
of a group are then read back from the group, and a tag set from the texts of its members.
-/

namespace StoryTape.Script

open Text

/-- The characters that stand around the names and numbers of a line. -/
theorem not_isIdentChar (c : Char) (hc : c ∈ "<>=?!;()[]\x7b\x7d \t".toList) :
    isIdentChar c = false := by
  have hall : ("<>=?!;()[]\x7b\x7d \t".toList.all fun c => !isIdentChar c) = true := by
    decide +kernel
  exact Bool.not_eq_eq_eq_not.mp (List.all_eq_true.mp hall c hc)

/-- A character of an identifier is none that belongs to no identifier. -/
theorem ne_of_isIdentChar {c d : Char} (hc : isIdentChar c = true) (hd : isIdentChar d = false) :
    c ≠ d := by
  rintro rfl
  rw [hc] at hd
  cases hd

/-! ### Tokens -/

/-- The text of a tag, as it is read off a line. -/
def IsToken (token : List Char) : Prop := ∃ s rest, readToken s = some (token, rest)

/-- A text that no token in front of it goes on into. -/
def Stops (s : List Char) : Prop := ∀ c ∈ s.head?, isIdentChar c = false ∧ c ≠ '<' ∧ c ≠ '>'

/-- Nothing is read in front of what no token goes on into. -/
theorem readBody_of_stops {s : List Char} (h : Stops s) : readBody s = ([], s) := by
  cases s with
  | nil => rfl
  | cons c s =>
    obtain ⟨hident, hlower, hgreater⟩ := h c rfl
    simp [readBody, hident, hlower, hgreater]

/-- A body is read back in front of whatever it does not go on into. -/
theorem readBody_append {u : List Char} (hu : readBody u = ([], u)) (s : List Char) :
    readBody ((readBody s).1 ++ u) = ((readBody s).1, u) := by
  fun_induction readBody s with
  | case1 => exact hu
  | case2 s body rest hbody ih =>
    rw [hbody] at ih
    simp [readBody, ih]
  | case3 s body rest hbody ih =>
    rw [hbody] at ih
    simp [readBody, ih]
  | case4 c s _ _ hident body rest hbody ih =>
    rw [hbody] at ih
    have hlower := ne_of_isIdentChar hident (not_isIdentChar '<' (by decide))
    have hgreater := ne_of_isIdentChar hident (not_isIdentChar '>' (by decide))
    simp [readBody, ih, hident, hlower, hgreater]
  | case5 c s _ _ hident => exact hu

/-- A body is made of characters of identifiers, brackets and equal signs. -/
theorem mem_readBody {s : List Char} {c : Char} (h : c ∈ (readBody s).1) :
    isIdentChar c = true ∨ c ∈ ['<', '>', '='] := by
  fun_induction readBody s with
  | case1 => cases h
  | case2 s body rest hbody ih =>
    rw [hbody] at ih
    simp only [List.mem_cons] at h
    rcases h with rfl | rfl | h
    · exact .inr (by decide)
    · exact .inr (by decide)
    · exact ih h
  | case3 s body rest hbody ih =>
    rw [hbody] at ih
    simp only [List.mem_cons] at h
    rcases h with rfl | rfl | h
    · exact .inr (by decide)
    · exact .inr (by decide)
    · exact ih h
  | case4 c' s _ _ hident body rest hbody ih =>
    rw [hbody] at ih
    rcases List.mem_cons.mp h with rfl | h
    · exact .inl hident
    · exact ih h
  | case5 c s _ _ hident => cases h

/-- What is read as a sign. -/
theorem readSign_cases (s : List Char) :
    (readSign s).1 = [] ∨ (readSign s).1 = ['?'] ∨ (readSign s).1 = ['!'] := by
  unfold readSign
  grind

/-- What is read as a location. -/
theorem readQualifier_cases (s : List Char) :
    (readQualifier s).1 = [] ∨ ∃ c name, (∀ d ∈ c :: name, isIdentChar d = true) ∧
      (readQualifier s).1 = '<' :: (c :: name ++ ['>']) := by
  unfold readQualifier
  split
  · next s =>
    split
    · next rest _ =>
      dsimp only
      split
      · exact .inl rfl
      · next hname =>
        obtain ⟨c, name, hcons⟩ := List.exists_cons_of_ne_nil (mt List.isEmpty_iff.mpr hname)
        refine .inr ⟨c, name, fun d hd => ?_, by rw [← hcons]; rfl⟩
        rw [← hcons] at hd
        exact List.all_eq_true.mp List.all_takeWhile d hd
    · exact .inl rfl
  · exact .inl rfl

/-- A sign is read back in front of what opens with none. -/
theorem readSign_append {sign u : List Char} (hsign : sign = [] ∨ sign = ['?'] ∨ sign = ['!'])
    (hu : ∀ c ∈ u.head?, c ≠ '?' ∧ c ≠ '!') : readSign (sign ++ u) = (sign, u) := by
  rcases hsign with rfl | rfl | rfl
  · cases u with
    | nil => rfl
    | cons c u => simp [readSign, hu c rfl]
  · rfl
  · rfl

/-- A location is read back where no token goes on, and no body goes on into it. -/
theorem readQualifier_append {place rest : List Char} (hrest : Stops rest)
    (hplace : place = [] ∨ ∃ c name, (∀ d ∈ c :: name, isIdentChar d = true) ∧
      place = '<' :: (c :: name ++ ['>'])) :
    readQualifier (place ++ rest) = (place, rest) ∧
      readBody (place ++ rest) = ([], place ++ rest) := by
  rcases hplace with rfl | ⟨c, name, hname, rfl⟩
  · refine ⟨?_, readBody_of_stops hrest⟩
    cases rest with
    | nil => rfl
    | cons c rest => simp [readQualifier, (hrest c rfl).2.1]
  · have hopen : isIdentChar '<' = false := not_isIdentChar '<' (by decide)
    have hclose : isIdentChar '>' = false := not_isIdentChar '>' (by decide)
    have hequal := ne_of_isIdentChar (hname c List.mem_cons_self) (not_isIdentChar '=' (by decide))
    have htext : '<' :: (c :: name ++ ['>']) ++ rest = '<' :: (c :: name ++ '>' :: rest) := by simp
    rw [htext]
    constructor
    · rw [readQualifier, List.takeWhile_append_of_pos hname, List.dropWhile_append_of_pos hname]
      simp [hclose]
    · simp [readBody, hopen, hequal]

/-- What a token is put together of. -/
theorem IsToken.exists_parts {token : List Char} (h : IsToken token) :
    ∃ sign body place, token = sign ++ body ++ place ∧
      (sign = [] ∨ sign = ['?'] ∨ sign = ['!']) ∧ body ≠ [] ∧ (∃ s, (readBody s).1 = body) ∧
      (place = [] ∨ ∃ c name, (∀ d ∈ c :: name, isIdentChar d = true) ∧
        place = '<' :: (c :: name ++ ['>'])) := by
  obtain ⟨s, rest, h⟩ := h
  simp only [readToken] at h
  split at h
  · cases h
  · next hbody =>
    cases h
    exact ⟨_, _, _, rfl, readSign_cases s, by simpa using hbody, ⟨_, rfl⟩, readQualifier_cases _⟩

/-- The characters that stand in tokens. -/
theorem IsToken.isIdentChar_or_mem {token : List Char} (h : IsToken token) {c : Char}
    (hc : c ∈ token) : isIdentChar c = true ∨ c ∈ ['?', '!', '<', '>', '='] := by
  obtain ⟨sign, body, place, rfl, hsign, -, ⟨s, rfl⟩, hplace⟩ := h.exists_parts
  simp only [List.mem_append] at hc
  rcases hc with (hc | hc) | hc
  · rcases hsign with rfl | rfl | rfl <;> simp_all
  · exact (mem_readBody hc).imp_right fun hc => List.mem_cons_of_mem _ (List.mem_cons_of_mem _ hc)
  · rcases hplace with rfl | ⟨d, name, hname, rfl⟩
    · cases hc
    · simp only [List.mem_cons, List.mem_append, List.not_mem_nil, or_false] at hc
      rcases hc with rfl | (hc | rfl)
      · exact .inr (by decide)
      · exact .inl (hname c (List.mem_cons.mpr hc))
      · exact .inr (by decide)

/-- No blank stands in a token. -/
theorem IsToken.isBlank {token : List Char} (h : IsToken token) {c : Char} (hc : c ∈ token) :
    isBlank c = false := by
  rcases h.isIdentChar_or_mem hc with hident | hmark
  · simp only [isIdentChar, Bool.or_eq_true, beq_iff_eq] at hident
    rcases hident with (((hword | rfl) | rfl) | rfl) | rfl
    · exact isBlank_of_isNameChar (by simp [isNameChar, hword])
    all_goals decide
  · simp only [List.mem_cons, List.not_mem_nil, or_false] at hmark
    rcases hmark with rfl | rfl | rfl | rfl | rfl <;> decide

/-- A token is read back in front of a text that it does not go on into. -/
theorem IsToken.readToken_append {token rest : List Char} (h : IsToken token)
    (hrest : Stops rest) : readToken (token ++ rest) = some (token, rest) := by
  obtain ⟨sign, body, place, rfl, hsign, hne, ⟨s, rfl⟩, hplace⟩ := h.exists_parts
  obtain ⟨hplace, hends⟩ := readQualifier_append hrest hplace
  have hbody := readBody_append hends s
  have hhead : ∀ c ∈ ((readBody s).1 ++ (place ++ rest)).head?, c ≠ '?' ∧ c ≠ '!' := by
    intro c hc
    rw [List.head?_append_of_ne_nil _ hne] at hc
    rcases mem_readBody (List.mem_of_head? hc) with hident | hmark
    · exact ⟨ne_of_isIdentChar hident (not_isIdentChar '?' (by decide)),
        ne_of_isIdentChar hident (not_isIdentChar '!' (by decide))⟩
    · exact ⟨ne_of_mem_of_not_mem hmark (by decide), ne_of_mem_of_not_mem hmark (by decide)⟩
  have hsign := readSign_append hsign hhead
  rw [List.append_assoc, List.append_assoc, readToken]
  simp [hsign, hbody, hplace, hne]

/-! ### Groups -/

/-- Nothing is skipped in front of a character that makes no gap. -/
theorem skipGap_cons {c : Char} (h : isGap c = false) (s : List Char) :
    skipGap (c :: s) = c :: s := by
  simp [skipGap, h]

/-- No gap is skipped in front of a token. -/
theorem IsToken.skipGap_append {token : List Char} (h : IsToken token) (rest : List Char) :
    skipGap (token ++ rest) = token ++ rest := by
  obtain ⟨sign, body, place, htoken, -, hne, -⟩ := h.exists_parts
  obtain ⟨c, s, rfl⟩ := List.exists_cons_of_ne_nil (l := token) (by simp [htoken, hne])
  refine skipGap_cons ?_ _
  have hblank := h.isBlank List.mem_cons_self
  rw [isGap, Bool.or_eq_false_iff, beq_eq_false_iff_ne, beq_eq_false_iff_ne]
  constructor <;> rintro rfl <;> exact absurd hblank (by decide)

/-- No token goes on into a semicolon or a closing bracket. -/
theorem stops_cons {c : Char} (h : c ∈ [';', ')', ']', '\x7d']) (s : List Char) :
    Stops (c :: s) := by
  rintro _ ⟨⟩
  have hmark : c ∈ "<>=?!;()[]\x7b\x7d \t".toList := by
    simp only [List.mem_cons, List.not_mem_nil, or_false] at h
    rcases h with rfl | rfl | rfl | rfl <;> decide
  exact ⟨not_isIdentChar c hmark, ne_of_mem_of_not_mem h (by decide),
    ne_of_mem_of_not_mem h (by decide)⟩

/-- Without a semicolon there are no further tokens. -/
theorem readMoreTokens_of_ne {s : List Char} (h : ∀ s', skipGap s ≠ ';' :: s') :
    readMoreTokens s = ([], s) := by
  rw [readMoreTokens]
  split
  · next s' hs => exact absurd hs (h s')
  · rfl

/-- A token behind a semicolon is read, and then those behind it. -/
theorem readMoreTokens_cons {s s' token rest : List Char} (hs : skipGap s = ';' :: s')
    (htoken : readToken (skipGap s') = some (token, rest)) :
    readMoreTokens s = (token :: (readMoreTokens rest).1, (readMoreTokens rest).2) := by
  rw [readMoreTokens]
  split
  · next s'' hs'' =>
    cases hs.symm.trans hs''
    split
    · next token' rest' htoken' =>
      cases htoken.symm.trans htoken'
      rfl
    · next hnone => cases htoken.symm.trans hnone
  · next hne => exact absurd hs (hne s')

section Groups

variable {tokens : List (List Char)} {opening closing : Char}

/-- Nothing is skipped in front of a closing bracket. -/
theorem skipGap_closing (hclosing : closing ∈ [')', ']', '\x7d']) (rest : List Char) :
    skipGap (closing :: rest) = closing :: rest := by
  have hgap : ∀ c ∈ [')', ']', '\x7d'], isGap c = false := by simp [isGap]
  exact skipGap_cons (hgap closing hclosing) rest

/-- No token goes on into a closing bracket. -/
theorem stops_closing (hclosing : closing ∈ [')', ']', '\x7d']) (rest : List Char) :
    Stops (closing :: rest) :=
  stops_cons (List.mem_cons_of_mem ';' hclosing) rest

/-- Tokens behind semicolons are read up to the bracket that closes their group. -/
theorem readMoreTokens_append (h : ∀ token ∈ tokens, IsToken token)
    (hclosing : closing ∈ [')', ']', '\x7d']) (rest : List Char) :
    readMoreTokens (tokens.flatMap (';' :: ·) ++ closing :: rest) = (tokens, closing :: rest) := by
  induction tokens with
  | nil =>
    have hskip := skipGap_closing hclosing rest
    refine readMoreTokens_of_ne fun s' hs => ?_
    rw [List.flatMap_nil, List.nil_append, hskip] at hs
    cases hs
    exact absurd hclosing (by decide)
  | cons token tokens ih =>
    obtain ⟨htoken, htokens⟩ := List.forall_mem_cons.mp h
    have hrest : Stops (tokens.flatMap (';' :: ·) ++ closing :: rest) := by
      cases tokens with
      | nil => exact stops_closing hclosing rest
      | cons next tokens => exact stops_cons (by decide) _
    have hread := htoken.readToken_append hrest
    rw [← htoken.skipGap_append] at hread
    have hs : skipGap ((token :: tokens).flatMap (';' :: ·) ++ closing :: rest) =
        ';' :: (token ++ (tokens.flatMap (';' :: ·) ++ closing :: rest)) := by
      rw [List.flatMap_cons, List.append_assoc]
      exact skipGap_cons rfl _
    rw [readMoreTokens_cons hs hread, ih htokens]

/-- Tokens are read up to the bracket that closes their group. -/
theorem readTokens_append (h : ∀ token ∈ tokens, IsToken token)
    (hclosing : closing ∈ [')', ']', '\x7d']) (rest : List Char) :
    readTokens (join [';'] tokens ++ closing :: rest) = (tokens, closing :: rest) := by
  cases tokens with
  | nil =>
    have hnone : readToken (closing :: rest) = none := by
      have hbody := readBody_of_stops (stops_closing hclosing rest)
      have hsign : readSign (closing :: rest) = ([], closing :: rest) := by
        refine readSign_append (.inl rfl) ?_
        rintro _ ⟨⟩
        exact ⟨ne_of_mem_of_not_mem hclosing (by decide),
          ne_of_mem_of_not_mem hclosing (by decide)⟩
      simp [readToken, hsign, hbody]
    rw [join, List.nil_append, readTokens, skipGap_closing hclosing, hnone]
  | cons token tokens =>
    obtain ⟨htoken, htokens⟩ := List.forall_mem_cons.mp h
    have hrest : Stops (tokens.flatMap (';' :: ·) ++ closing :: rest) := by
      cases tokens with
      | nil => exact stops_closing hclosing rest
      | cons next tokens => exact stops_cons (by decide) _
    rw [join_cons, List.append_assoc, readTokens, htoken.skipGap_append,
      htoken.readToken_append hrest]
    simp only [readMoreTokens_append htokens hclosing]

/-- Tokens between brackets are read back. -/
theorem readGroup_append (h : ∀ token ∈ tokens, IsToken token) (hopening : isGap opening = false)
    (hclosing : closing ∈ [')', ']', '\x7d']) (rest : List Char) :
    readGroup opening closing (opening :: (join [';'] tokens ++ closing :: rest)) =
      some (tokens, rest) := by
  have hread := readTokens_append h hclosing rest
  have hskip := skipGap_closing hclosing rest
  simp [readGroup, skipGap_cons hopening, hread, hskip]

/-- Without the opening bracket there is no group. -/
theorem readGroup_of_ne {c : Char} (hgap : isGap c = false) (hne : c ≠ opening) (rest : List Char) :
    readGroup opening closing (c :: rest) = none := by
  simp [readGroup, skipGap_cons hgap, hne]

/-! ### Tokens that were read -/

/-- Further tokens that are read are tokens. -/
theorem isToken_of_mem_readMoreTokens {s token : List Char} (h : token ∈ (readMoreTokens s).1) :
    IsToken token := by
  fun_induction readMoreTokens s with
  | case1 s s' _ first rest htoken tokens rest' hmore ih =>
    rw [hmore] at ih
    rcases List.mem_cons.mp h with rfl | h
    · exact ⟨_, _, htoken⟩
    · exact ih h
  | case2 => cases h
  | case3 => cases h

/-- Tokens that are read are tokens. -/
theorem isToken_of_mem_readTokens {s token : List Char} (h : token ∈ (readTokens s).1) :
    IsToken token := by
  rw [readTokens] at h
  split at h
  · next first rest hfirst =>
    rcases List.mem_cons.mp h with rfl | h
    · exact ⟨_, _, hfirst⟩
    · exact isToken_of_mem_readMoreTokens h
  · cases h

/-- What is read of a group are tokens. -/
theorem isToken_of_mem_readGroup {s rest token : List Char}
    (h : readGroup opening closing s = some (tokens, rest)) (htoken : token ∈ tokens) :
    IsToken token := by
  rw [readGroup] at h
  split at h
  · cases h
  · next c s' _ =>
    split at h
    · dsimp only at h
      split at h
      · cases h
      · split at h
        · cases h
          exact isToken_of_mem_readTokens htoken
        · cases h
    · cases h

end Groups

/-! ### Tag sets -/

/-- A tag set whose members have the texts of tokens. -/
def OfTokens (s : TagSet) : Prop := ∀ t ∈ s.tags, IsToken t.raw.toList

/-- The tag set of tokens has members with the texts of tokens. -/
theorem ofTokens_of_setOfTokens {phase : Phase} {tokens : List (List Char)} {s : TagSet}
    (htokens : ∀ token ∈ tokens, IsToken token) (h : setOfTokens phase tokens = .ok s) :
    OfTokens s := by
  obtain ⟨tags, htags, hs⟩ := bind_eq_ok_iff.mp (mapError_eq_ok_iff.mp h)
  cases hs
  intro t ht
  obtain ⟨raw, hraw, hparse⟩ := exists_of_mem_mapM_ok htags (TagSet.mem_ofList.mp ht)
  obtain ⟨token, htoken, rfl⟩ := List.mem_map.mp hraw
  have hread := htokens token htoken
  rw [Tag.raw_of_parse hparse, String.toList_ofList, String.toList_ofList,
    trim_eq_self fun c hc => hread.isBlank hc]
  exact hread

/-- The texts of tags are read back. -/
theorem mapM_parse_raws (tags : List Tag) : (tags.map Tag.raw).mapM Tag.parse = .ok tags := by
  induction tags with
  | nil => rfl
  | cons t tags ih =>
    rw [List.map_cons, List.mapM_cons, Tag.parse_raw, ih]
    rfl

/-- A tag set is that of the texts of its members. -/
theorem setOfTokens_raws (phase : Phase) (s : TagSet) :
    setOfTokens phase (s.raws.map String.toList) = .ok s := by
  have hraws : (s.raws.map String.toList).map String.ofList = s.raws := by simp
  rw [setOfTokens, hraws]
  refine mapError_eq_ok_iff.mpr (bind_eq_ok_iff.mpr ⟨_, mapM_parse_raws s.tags, ?_⟩)
  exact pure_eq_ok_iff.mpr (TagSet.ofList_tags s)

/-- The members of a set of tokens are written as tokens. -/
theorem OfTokens.isToken_raws {s : TagSet} (h : OfTokens s) :
    ∀ token ∈ s.raws.map String.toList, IsToken token := by
  intro token htoken
  obtain ⟨t, ht, rfl⟩ : ∃ t ∈ s.tags, t.raw.toList = token := by
    simpa [TagSet.raws] using htoken
  exact h t ht

/-- The written form of a set between brackets is read as the texts of its members. -/
theorem readGroup_render {s : TagSet} (h : OfTokens s) {opening closing : Char}
    (hopening : isGap opening = false) (hclosing : closing ∈ [')', ']', '\x7d'])
    (rest : List Char) :
    readGroup opening closing (opening :: (s.render.toList ++ closing :: rest)) =
      some (s.raws.map String.toList, rest) := by
  rw [TagSet.render, String.toList_ofList]
  exact readGroup_append h.isToken_raws hopening hclosing rest

end StoryTape.Script
