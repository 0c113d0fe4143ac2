import WrenGlue.Proofs.Header.LineText
import WrenGlue.Proofs.Header.Segmentation

/-! The pattern of method lines as a grammar. A line declares a method exactly if it can be cut into
the parts of one. Some words may stand in more than one place, and white space may be counted to
one part or another; still, all cuts of a line have the same parts but for white space. -/

namespace WrenGlue.Header

open WrenGlue.Text
open WrenGlue.Cpp (DeclaredType)

/-! ### Method heads -/

/-- Between white space and a word there is some of it. -/
theorem ne_nil_of_head {gap word rest : List Char} (hne : word ≠ [])
    (hword : ∀ c ∈ word, isWhite c = false)
    (h : ∀ c ∈ (gap ++ word ++ rest).head?, isWhite c = true) : gap ≠ [] := by
  rintro rfl
  obtain ⟨c, more, rfl⟩ := List.exists_cons_of_ne_nil hne
  have hblack := hword c List.mem_cons_self
  rw [h c (by simp)] at hblack
  cases hblack

theorem exists_baseText {text type : List Char} (h : returnWords? (words text) = some type) :
    ∃ before base gap, isBlank before = true ∧ BaseText type base ∧ isBlank gap = true ∧
      text = before ++ base ++ gap := by
  cases hw : words text with
  | nil => simp [hw, returnWords?] at h
  | cons first others =>
    rw [hw] at h
    obtain ⟨before, rest, hb, rfl, hrest, hne, -, hgap⟩ := exists_of_words_eq_cons hw
    cases others with
    | nil =>
      simp only [returnWords?, Option.ite_none_right_eq_some, List.all_eq_true,
        Option.some.injEq] at h
      obtain ⟨hall, rfl⟩ := h
      exact ⟨before, first, rest, hb, .plain hne hall, isBlank_of_words_eq_nil hrest, rfl⟩
    | cons second more =>
      cases more with
      | cons third more => simp [returnWords?] at h
      | nil =>
        simp only [returnWords?, Option.ite_none_right_eq_some, List.all_eq_true,
          Option.some.injEq] at h
        obtain ⟨⟨rfl, hall⟩, rfl⟩ := h
        obtain ⟨between, gap, hbetween, rfl, hend, hne, hword, -⟩ := exists_of_words_eq_cons hrest
        have hbase := BaseText.const hne hall (ne_nil_of_head hne hword hgap) hbetween
        exact ⟨before, _, gap, hb, hbase, isBlank_of_words_eq_nil hend, by simp⟩

/-- Either a type stands alone, or behind one of two words. -/
theorem specifiers?_eq_some {ws : List (List Char)} {qualifiers : Qualifiers} {type : List Char}
    (h : specifiers? ws = some (qualifiers, type)) :
    qualifiers = {} ∧ returnWords? ws = some type ∨
    ∃ word rest, ws = word :: rest ∧ returnWords? rest = some type ∧
      (word = "static".toList ∧ qualifiers = { isStatic := true } ∨
        word = "virtual".toList ∧ qualifiers = { isVirtual := true }) := by
  have hmap : ∀ {found : Qualifiers} {ws : List (List Char)},
      (returnWords? ws).map (fun type => (found, type)) = some (qualifiers, type) →
        qualifiers = found ∧ returnWords? ws = some type := by
    intro found ws h
    obtain ⟨type', htype, heq⟩ := Option.map_eq_some_iff.1 h
    cases heq
    exact ⟨rfl, htype⟩
  rw [specifiers?.eq_def] at h
  split at h
  · cases h
  · exact .inl (hmap h)
  · split_ifs at h with hstatic hvirtual
    · obtain ⟨hfound, htype⟩ := hmap h
      exact .inr ⟨_, _, rfl, htype, .inl ⟨hstatic, hfound⟩⟩
    · obtain ⟨hfound, htype⟩ := hmap h
      exact .inr ⟨_, _, rfl, htype, .inr ⟨hvirtual, hfound⟩⟩
    · exact .inl (hmap h)

theorem exists_specifierText {text type : List Char} {qualifiers : Qualifiers}
    (h : specifiers? (words text) = some (qualifiers, type)) :
    ∃ before specifiers base gap, isBlank before = true ∧ SpecifierText qualifiers specifiers ∧
      BaseText type base ∧ isBlank gap = true ∧ text = before ++ specifiers ++ base ++ gap := by
  rcases specifiers?_eq_some h with ⟨rfl, htype⟩ | ⟨word, others, hw, htype, hword⟩
  · obtain ⟨before, base, gap, hb, hbase, hg, rfl⟩ := exists_baseText htype
    exact ⟨before, [], base, gap, hb, .none, hbase, hg, by simp⟩
  · obtain ⟨before, rest, hb, rfl, rfl, -, -, hrest⟩ := exists_of_words_eq_cons hw
    obtain ⟨between, base, gap, hbetween, hbase, hg, rfl⟩ := exists_baseText htype
    have hne : between ≠ [] := by
      rintro rfl
      have hhead := hbase.head
      obtain ⟨c, more, hc⟩ := List.exists_cons_of_ne_nil hhead.1
      have hwhite := hrest c (by simp [hc])
      simp [hc, hwhite] at hhead
    refine ⟨before, word ++ between, base, gap, hb, ?_, hbase, hg, by simp⟩
    rcases hword with ⟨rfl, rfl⟩ | ⟨rfl, rfl⟩
    · exact .static hne hbetween
    · exact .virtual hne hbetween

/-- What stands in front of a method name. -/
theorem exists_returnText {text spelling sigil type : List Char} {qualifiers : Qualifiers}
    (hs : splitSigil? text = some (spelling, sigil))
    (ht : specifiers? (words spelling) = some (qualifiers, type)) :
    ∃ before specifiers typeText, isBlank before = true ∧ SpecifierText qualifiers specifiers ∧
      ReturnText (type ++ sigil) typeText ∧ text = before ++ specifiers ++ typeText := by
  obtain ⟨before, specifiers, base, gap, hb, hspecifiers, hbase, hg, rfl⟩ := exists_specifierText ht
  obtain ⟨behind, hbehind, htext⟩ := exists_trimEnd_append_blank text
  rw [splitSigil?] at hs
  split at hs
  · cases hs
  · next c hc =>
    split_ifs at hs with hsigil hlast
    · obtain ⟨hfront, rfl⟩ := Prod.mk.inj (Option.some.inj hs)
      have hsplit : trimEnd text = before ++ specifiers ++ base ++ gap ++ [c] := by
        rw [← hfront]
        exact (List.dropLast_append_getLast? c (Option.mem_def.2 hc)).symm
      exact ⟨before, specifiers, _, hb, hspecifiers, .sigil hbase hsigil hg hbehind,
        by rw [htext, hsplit]; simp⟩
    · obtain ⟨rfl, rfl⟩ := Prod.mk.inj (Option.some.inj hs)
      have hne : gap ≠ [] := by
        rintro rfl
        obtain ⟨d, hd, htype⟩ := hbase.last
        rw [List.append_nil, List.getLast?_append, hd, Option.some_or, Option.any_some,
          isWhite_eq_false_of_isTypeChar htype] at hlast
        cases hlast
      rw [List.append_nil]
      exact ⟨before, specifiers, _, hb, hspecifiers, .spaced hbase hne hg, by simp⟩

/-- The heads that are read are those that are written. -/
theorem methodHead?_eq_some_iff {text type name : List Char} {qualifiers : Qualifiers} :
    methodHead? text = some (qualifiers, type, name) ↔ HeadText qualifiers type name text := by
  refine ⟨fun h => ?_, HeadText.methodHead?_eq⟩
  obtain ⟨after, ha, htext⟩ := exists_trimEnd_append_blank text
  have hsplit := splitTail_append isWord (trimEnd text)
  have hword : ∀ c ∈ (splitTail isWord (trimEnd text)).2, isWord c = true := fun c hc =>
    of_mem_splitTail hc
  simp only [methodHead?, guard, Option.bind_eq_bind, Option.bind_eq_some_iff, Option.pure_def,
    Option.some.injEq, Prod.mk.injEq] at h
  obtain ⟨_, hname, ⟨spelling, sigil⟩, hsigil, ⟨found, base⟩, hspecifiers, rfl, rfl, rfl⟩ := h
  have hne : (splitTail isWord (trimEnd text)).2 ≠ [] := by
    intro hnil
    simp [hnil] at hname
  obtain ⟨before, specifiers, typeText, hb, hs, ht, hfront⟩ := exists_returnText hsigil hspecifiers
  rw [hfront] at hsplit
  have hhead := HeadText.intro hb hs ht hne hword ha
  rwa [hsplit, ← htext] at hhead

/-! ### Method lines -/

theorem exists_optionalText {word : String} {text rest : List Char} {present : Bool}
    (h : skipWord word text = (present, rest)) : ∃ gap optional, isBlank gap = true ∧
      OptionalText word present optional ∧ text = gap ++ optional ++ rest := by
  obtain ⟨gap, hg, ht⟩ := exists_blank_append_trimStart text
  rw [skipWord] at h
  split at h
  · next behind hbehind =>
    obtain ⟨rfl, rfl⟩ := Prod.mk.inj h
    obtain ⟨gap', hg', hb⟩ := exists_blank_append_trimStart behind
    rw [List.isPrefixOf?_eq_some_iff_append_eq] at hbehind
    refine ⟨gap, word.toList ++ gap', hg, .present hg', ?_⟩
    rw [List.append_assoc, List.append_assoc, ← hb, hbehind]
    exact ht
  · obtain ⟨rfl, rfl⟩ := Prod.mk.inj h
    exact ⟨gap, [], hg, .absent, by rw [List.append_nil]; exact ht⟩

/-- What is read off behind the arguments is written there. -/
theorem trailerText_of_skipWord {text rest : List Char} {isConst isOverride : Bool}
    (hc : skipWord "const" text = (isConst, rest))
    (ho : skipWord "override" rest = (isOverride, [';'])) :
    TrailerText isConst isOverride text := by
  obtain ⟨gap, constText, hg, hconst, rfl⟩ := exists_optionalText hc
  obtain ⟨between, overrideText, hbetween, hoverride, rfl⟩ := exists_optionalText ho
  -- The white space in front of the second word belongs to what stands there.
  cases hconst with
  | absent =>
    have hgap : isBlank (gap ++ between) = true := by simp [isBlank_append, hg, hbetween]
    have htrailer := TrailerText.intro hgap .absent hoverride
    simpa using htrailer
  | @present behind hbehind =>
    have hgap : isBlank (behind ++ between) = true := by simp [isBlank_append, hbehind, hbetween]
    have htrailer := TrailerText.intro hg (.present hgap) hoverride
    simpa using htrailer

/-- The parts that are read are those of the ways to cut the line. -/
theorem MethodText.ofLine?_eq_some_iff {text : List Char} {parts : MethodText} :
    MethodText.ofLine? text = some parts ↔
      ∃ raw : MethodText, raw.Cuts text ∧ raw.normalized = parts := by
  constructor
  · intro h
    simp only [MethodText.ofLine?, Option.bind_eq_bind, Option.bind_eq_some_iff, Option.pure_def,
      Option.some.injEq] at h
    obtain ⟨line, hline, ⟨kind, behind⟩, hkind, ⟨head, list⟩, hhead, ⟨qualifiers, type, name⟩,
      hparts, ⟨args, rest⟩, hargs, _, hend, rfl⟩ := h
    rw [List.isPrefixOf?_eq_some_iff_append_eq] at hline
    obtain ⟨rfl, hparen⟩ := cut?_eq_some_iff.1 hkind
    obtain ⟨rfl, -⟩ := cut?_eq_some_iff.1 hhead
    obtain ⟨hrun, rfl⟩ := argumentText?_eq_some_iff.1 hargs
    have hsemicolon : (skipWord "override" (skipWord "const" rest).2).2 = [';'] := by
      by_contra hne
      simp [guard, hne] at hend
    have htrailer := trailerText_of_skipWord (Prod.eta (skipWord "const" rest)).symm
      (Prod.ext rfl hsemicolon)
    cases methodHead?_eq_some_iff.1 hparts with
    | intro hb hs ht hne hn ha =>
      rw [← hline]
      refine ⟨_, .intro hparen hb hs ht hne hn ha hrun htrailer, ?_⟩
      rw [MethodText.normalized, ht.normalizeChars_eq]
  · rintro ⟨raw, hraw, rfl⟩
    exact hraw.ofLine?_eq

/-- All ways to cut a line give the same parts. -/
theorem MethodText.Cuts.normalized_eq {raw raw' : MethodText} {text : List Char}
    (h : raw.Cuts text) (h' : raw'.Cuts text) : raw.normalized = raw'.normalized :=
  Option.some.inj (h.ofLine?_eq.symm.trans h'.ofLine?_eq)

/-! ### Declaring methods -/

/-- What a declaration with the parts `parts` on line `l` does to the class that has begun: it adds a
method, or it is an error. -/
def MethodText.declare (parts : MethodText) (l : Line) (current : Option ClassDecl) :
    Except DeclarationError (Option ClassDecl) :=
  match parts.method l.number, current with
  | .ok m, some c => .ok (some (c.add m))
  | .ok _, none => .error (l.error .methodOutsideClass)
  | .error what, _ => .error (l.error what)

/-- What a line that begins no class does to the class that has begun. -/
def Line.declare (l : Line) (current : Option ClassDecl) :
    Except DeclarationError (Option ClassDecl) :=
  match MethodText.ofLine? l.content with
  | none => .ok current
  | some parts => parts.declare l current

theorem ClassStream.advance_cons {l : Line} (h : headingName? l.content = none)
    (current : Option ClassDecl) (rest : List Line) :
    advance current (l :: rest) = match l.declare current with
      | .ok current => advance current rest
      | .error e => (some (.error e), ended) := by
  cases hparts : MethodText.ofLine? l.content with
  | none =>
    have hread : l.read = .other := by simp only [Line.read, h, hparts]
    simp only [advance, hread, Line.declare, hparts]
  | some parts =>
    cases hm : parts.method l.number with
    | ok m =>
      have hread : l.read = .method m := by simp only [Line.read, h, hparts, hm]
      cases current <;> simp only [advance, hread, Line.declare, hparts, MethodText.declare, hm]
    | error what =>
      have hread : l.read = .fault what := by simp only [Line.read, h, hparts, hm]
      simp only [advance, hread, Line.declare, hparts, MethodText.declare, hm]

theorem ClassDecl.add_ne (c : ClassDecl) (m : MethodDecl) : c.add m ≠ c := by
  intro h
  have hlength := congrArg (·.methods.length) h
  simp [ClassDecl.add] at hlength

/-- A declaration leaves something behind. -/
theorem MethodText.declare_cases (parts : MethodText) (l : Line) (current : Option ClassDecl) :
    (∃ c m, current = some c ∧ parts.declare l current = .ok (some (c.add m))) ∨
      ∃ e, parts.declare l current = .error e := by
  cases hm : parts.method l.number with
  | error what => exact .inr ⟨_, by simp only [declare, hm]; rfl⟩
  | ok m =>
    cases current with
    | none => exact .inr ⟨_, by simp only [declare, hm]; rfl⟩
    | some c => exact .inl ⟨c, m, rfl, by simp only [declare, hm]⟩

/-- A line that begins no class adds a method or is in error exactly if it can be cut into the parts
of a method. All ways to cut it have the same parts, and these make the method or the error. -/
theorem declare_iff_cuts {l : Line} (h : headingName? l.content = none)
    (current : Option ClassDecl) (rest : List Line) :
    (ClassStream.advance current (l :: rest) = match l.declare current with
      | .ok current => ClassStream.advance current rest
      | .error e => (some (.error e), .ended)) ∧
    ((∃ raw : MethodText, raw.Cuts l.content) ↔
      (∃ c m, current = some c ∧ l.declare current = .ok (some (c.add m))) ∨
        ∃ e, l.declare current = .error e) ∧
    (∀ raw raw' : MethodText, raw.Cuts l.content → raw'.Cuts l.content →
      raw.normalized = raw'.normalized) ∧
    ∀ raw : MethodText, raw.Cuts l.content →
      l.declare current = raw.normalized.declare l current := by
  have hdeclare : ∀ raw : MethodText, raw.Cuts l.content →
      l.declare current = raw.normalized.declare l current := by
    intro raw hraw
    rw [Line.declare, hraw.ofLine?_eq]
  refine ⟨ClassStream.advance_cons h current rest, ⟨?_, fun hdone => ?_⟩,
    fun raw raw' => MethodText.Cuts.normalized_eq, hdeclare⟩
  · rintro ⟨raw, hraw⟩
    rw [hdeclare raw hraw]
    exact raw.normalized.declare_cases l current
  · cases hparts : MethodText.ofLine? l.content with
    | some parts =>
      obtain ⟨raw, hraw, -⟩ := MethodText.ofLine?_eq_some_iff.1 hparts
      exact ⟨raw, hraw⟩
    | none =>
      -- Such a line leaves the class as it is.
      simp only [Line.declare, hparts] at hdone
      rcases hdone with ⟨c, m, rfl, hadd⟩ | ⟨e, he⟩
      · exact absurd (Option.some.inj (Except.ok.inj hadd)).symm (c.add_ne m)
      · cases he

/-- A line with a type and a name that are words of the pattern themselves. -/
def keywordLine : Line :=
  ⟨2, " WREN_METHOD( getter ) virtual const  static *const ( ) const ; // x".toList⟩

/-- The parts of `keywordLine`. -/
def keywordParts : MethodText :=
  ⟨"getter".toList, { isVirtual := true, isConst := true }, "const static*".toList,
    "const".toList, [' ']⟩

/-- Words that stand in front of types, in the place of a type and of a name. -/
theorem declare_iff_cuts_keywords :
    headingName? keywordLine.content = none ∧
    (∃ raw : MethodText, raw.Cuts keywordLine.content) ∧
    (∀ raw : MethodText, raw.Cuts keywordLine.content → raw.normalized = keywordParts) ∧
    keywordLine.declare (some { name := "ObjA" }) = .ok (some { name := "ObjA", methods := [
      ⟨"const", "const static*", .getter, keywordParts.qualifiers, [], 2⟩] }) := by
  have hheading : headingName? keywordLine.content = none := by decide
  have hread : MethodText.ofLine? keywordLine.content = some keywordParts := by decide
  obtain ⟨raw, hraw, hparts⟩ := MethodText.ofLine?_eq_some_iff.1 hread
  obtain ⟨-, hiff, hunique, hall⟩ := declare_iff_cuts hheading (some { name := "ObjA" }) []
  have hdeclare : keywordLine.declare (some { name := "ObjA" }) =
      .ok (some { name := "ObjA", methods := [
        ⟨"const", "const static*", .getter, keywordParts.qualifiers, [], 2⟩] }) := by
    rw [hall raw hraw, hparts]
    decide
  exact ⟨hheading, hiff.2 (.inl ⟨_, _, rfl, hdeclare⟩),
    fun raw' hraw' => (hunique raw' raw hraw' hraw).trans hparts, hdeclare⟩

end WrenGlue.Header
