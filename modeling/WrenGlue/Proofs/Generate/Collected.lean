import WrenGlue.Generate
import WrenGlue.Proofs.Bindings.Faults

/-! Which sources can be collected, and what is reported of the others. Sources are read in order,
and no two of their classes may share a name, in one source or in several. The first source that
cannot be added to those before it decides the error. -/

namespace WrenGlue

open WrenGlue.Bindings
open WrenGlue.Header (ClassDecl readClasses)

/-- The classes that sources declare, in order, each with the path of its source. -/
inductive Declare : List Source → List Declared → Prop
  | nil : Declare [] []
  | cons {source : Source} {classes : List ClassDecl} {rest : List Source} {all : List Declared} :
      readClasses source.text = .ok classes → Declare rest all →
      Declare (source :: rest) (classes.map (·, source.path) ++ all)

/-- No two of the classes share a name. -/
def DistinctNames (all : List Declared) : Prop := (all.map (·.1.name)).Nodup

/-- Why a source cannot be added to the classes seen before it. What its own text does wrong comes
before a class that was seen already. -/
inductive Source.Rejected (source : Source) (seen : List Declared) : GenerateError → Prop
  | declaration {cause : Header.DeclarationError} :
      readClasses source.text = .error cause →
      source.Rejected seen (.declaration source.path cause)
  | duplicateClass {front back : List ClassDecl} {c : ClassDecl} {first : String} :
      readClasses source.text = .ok (front ++ c :: back) →
      DistinctNames (seen ++ front.map (·, source.path)) →
      (∃ d ∈ seen ++ front.map (·, source.path), d.1.name = c.name ∧ d.2 = first) →
      source.Rejected seen (.duplicateClass c.name first source.path)

/-! ### Classes seen before -/

theorem distinctNames_append_singleton {seen : List Declared} {d : Declared} :
    DistinctNames (seen ++ [d]) ↔ DistinctNames seen ∧ d.1.name ∉ seen.map (·.1.name) := by
  rw [DistinctNames, List.map_append, List.map_singleton, List.nodup_append_comm,
    List.singleton_append, List.nodup_cons, and_comm, DistinctNames]

theorem DistinctNames.of_append {a b : List Declared} (h : DistinctNames (a ++ b)) :
    DistinctNames a := by
  rw [DistinctNames, List.map_append] at h
  exact h.of_append_left

theorem declaredIn?_eq_none_iff {seen : List Declared} {name : String} :
    declaredIn? seen name = none ↔ name ∉ seen.map (·.1.name) := by
  simp [declaredIn?]

/-- Among classes with different names, a name has one source. -/
theorem declaredIn?_eq_some_iff {seen : List Declared} (h : DistinctNames seen)
    {name path : String} :
    declaredIn? seen name = some path ↔ ∃ d ∈ seen, d.1.name = name ∧ d.2 = path := by
  rw [declaredIn?, Option.map_eq_some_iff]
  constructor
  · rintro ⟨d, hd, rfl⟩
    exact ⟨d, List.mem_of_find?_eq_some hd, by simpa using List.find?_some hd, rfl⟩
  · rintro ⟨d, hd, rfl, rfl⟩
    cases hf : seen.find? (·.1.name == d.1.name) with
    | none => simpa using List.find?_eq_none.1 hf d hd
    | some d' =>
      have hname : d'.1.name = d.1.name := by simpa using List.find?_some hf
      have hsame : d' = d := List.inj_on_of_nodup_map h (List.mem_of_find?_eq_some hf) hd hname
      exact ⟨d, by rw [hsame], rfl⟩

/-! ### The classes of one source -/

theorem addDeclared_append {path : String} {seen : List Declared} {front : List ClassDecl}
    (h : DistinctNames (seen ++ front.map (·, path))) (rest : List ClassDecl) :
    addDeclared path seen (front ++ rest) =
      addDeclared path (seen ++ front.map (·, path)) rest := by
  induction front generalizing seen with
  | nil => simp
  | cons c front ih =>
    rw [List.map_cons, List.append_cons] at h
    have hnew : declaredIn? seen c.name = none :=
      declaredIn?_eq_none_iff.2 (distinctNames_append_singleton.1 h.of_append).2
    simp only [List.cons_append, addDeclared, hnew]
    rw [ih h, List.map_cons, ← List.append_cons]

/-- Either the classes of a source have names of their own, or there is a first one that has not. -/
theorem distinctNames_or_exists {seen : List Declared} (hs : DistinctNames seen) (path : String)
    (classes : List ClassDecl) : DistinctNames (seen ++ classes.map (·, path)) ∨
      ∃ front c back, classes = front ++ c :: back ∧
        DistinctNames (seen ++ front.map (·, path)) ∧
        ∃ d ∈ seen ++ front.map (·, path), d.1.name = c.name := by
  induction classes generalizing seen with
  | nil => exact .inl (by simpa using hs)
  | cons c classes ih =>
    by_cases hc : c.name ∈ seen.map (·.1.name)
    · obtain ⟨d, hd, hname⟩ := List.mem_map.1 hc
      exact .inr ⟨[], c, classes, rfl, by simpa using hs, d, by simpa using hd, hname⟩
    · rcases ih (distinctNames_append_singleton.2 ⟨hs, hc⟩ : DistinctNames (seen ++ [(c, path)]))
        with h | ⟨front, c', back, rfl, hfront, hd⟩
      · exact .inl (by simpa using h)
      · exact .inr ⟨c :: front, c', back, rfl, by simpa using hfront, by simpa using hd⟩

/-! ### Sources -/

theorem addSources_cons_of_distinct {seen : List Declared} {source : Source}
    {classes : List ClassDecl} (hread : readClasses source.text = .ok classes)
    (h : DistinctNames (seen ++ classes.map (·, source.path))) (rest : List Source) :
    addSources seen (source :: rest) =
      addSources (seen ++ classes.map (·, source.path)) rest := by
  have hadd := addDeclared_append h []
  rw [List.append_nil] at hadd
  rw [addSources, hread]
  simp only [hadd]
  rfl

theorem addSources_cons_of_rejected {seen : List Declared} {source : Source} {e : GenerateError}
    (h : source.Rejected seen e) (rest : List Source) :
    addSources seen (source :: rest) = .error e := by
  cases h with
  | declaration hread => rw [addSources, hread]
  | duplicateClass hread hdistinct hd =>
    have hold := (declaredIn?_eq_some_iff hdistinct).2 hd
    rw [addSources, hread]
    simp only [addDeclared_append hdistinct, addDeclared, hold]
    rfl

theorem exists_distinct_or_rejected {seen : List Declared} (hs : DistinctNames seen)
    (source : Source) :
    (∃ classes, readClasses source.text = .ok classes ∧
      DistinctNames (seen ++ classes.map (·, source.path))) ∨ ∃ e, source.Rejected seen e := by
  cases hread : readClasses source.text with
  | error cause => exact .inr ⟨_, .declaration hread⟩
  | ok classes =>
    rcases distinctNames_or_exists hs source.path classes with h | ⟨front, c, back, rfl, h, d, hd⟩
    · exact .inl ⟨classes, rfl, h⟩
    · exact .inr ⟨_, .duplicateClass hread h ⟨d, hd.1, hd.2, rfl⟩⟩

theorem addSources_append {before : List Source} {all : List Declared} (h : Declare before all)
    {seen : List Declared} (hd : DistinctNames (seen ++ all)) (rest : List Source) :
    addSources seen (before ++ rest) = addSources (seen ++ all) rest := by
  induction h generalizing seen with
  | nil => simp
  | cons hread _ ih =>
    rw [← List.append_assoc] at hd ⊢
    rw [List.cons_append, addSources_cons_of_distinct hread hd.of_append, ih hd]

/-- Either all sources can be added to those before them, or there is a first one that cannot. -/
theorem exists_declare_or_rejected {seen : List Declared} (hs : DistinctNames seen)
    (sources : List Source) :
    (∃ all, Declare sources all ∧ DistinctNames (seen ++ all)) ∨
      ∃ before source after all e, sources = before ++ source :: after ∧ Declare before all ∧
        DistinctNames (seen ++ all) ∧ source.Rejected (seen ++ all) e := by
  -- The names in `seen` stay different as sources are added, up to the first that is rejected.
  induction sources generalizing seen with
  | nil => exact .inl ⟨[], .nil, by simpa using hs⟩
  | cons source rest ih =>
    rcases exists_distinct_or_rejected hs source with ⟨classes, hread, h⟩ | ⟨e, he⟩
    · rcases ih h with ⟨all, hall, hd⟩ | ⟨before, source', after, all, e, rfl, hall, hd, he⟩
      · exact .inl ⟨_, .cons hread hall, by simpa using hd⟩
      · exact .inr ⟨source :: before, source', after, _, e, rfl, .cons hread hall,
          by simpa using hd, by simpa using he⟩
    · exact .inr ⟨[], source, rest, [], e, rfl, .nil, by simpa using hs, by simpa using he⟩

theorem addSources_eq_ok {sources : List Source} {all : List Declared} (h : Declare sources all)
    (hd : DistinctNames all) : addSources [] sources = .ok all := by
  have hadd := @addSources_append sources all h [] hd []
  rwa [List.append_nil] at hadd

theorem addSources_eq_error {before after : List Source} {source : Source} {seen : List Declared}
    {e : GenerateError} (h : Declare before seen) (hd : DistinctNames seen)
    (he : source.Rejected seen e) : addSources [] (before ++ source :: after) = .error e := by
  rw [@addSources_append before seen h [] hd]
  exact addSources_cons_of_rejected he after

theorem collectClasses_eq_ok_iff {sources : List Source} {classes : List ClassDecl} :
    collectClasses sources = .ok classes ↔
      ∃ all, Declare sources all ∧ DistinctNames all ∧ classes = all.map (·.1) := by
  constructor
  · intro h
    obtain ⟨all, hall, h⟩ := bind_eq_ok.1 h
    rcases @exists_declare_or_rejected [] List.nodup_nil sources with
      ⟨found, hfound, hd⟩ | ⟨before, source, after, seen, e, rfl, hseen, hd, he⟩
    · rw [addSources_eq_ok hfound hd] at hall
      obtain rfl := Except.ok.inj hall
      exact ⟨found, hfound, hd, (Except.ok.inj h).symm⟩
    · rw [addSources_eq_error hseen hd he] at hall
      cases hall
  · rintro ⟨all, hall, hd, rfl⟩
    rw [collectClasses, addSources_eq_ok hall hd]
    rfl

theorem collectClasses_eq_error_iff {sources : List Source} {e : GenerateError} :
    collectClasses sources = .error e ↔
      ∃ before source after seen, sources = before ++ source :: after ∧ Declare before seen ∧
        DistinctNames seen ∧ source.Rejected seen e := by
  constructor
  · intro h
    rcases @exists_declare_or_rejected [] List.nodup_nil sources with
      ⟨found, hfound, hd⟩ | ⟨before, source, after, seen, e', rfl, hseen, hd, he⟩
    · rw [collectClasses, addSources_eq_ok hfound hd] at h
      cases h
    · rw [collectClasses, addSources_eq_error hseen hd he] at h
      obtain rfl := Except.error.inj h
      exact ⟨before, source, after, seen, rfl, hseen, hd, he⟩
  · rintro ⟨before, source, after, seen, rfl, hseen, hd, he⟩
    rw [collectClasses, addSources_eq_error hseen hd he]
    rfl

/-! ### Classes with different names -/

theorem duplicateClass_notMem_memberFaults {name : String} (recorded : List String)
    (ms : List Member) : .duplicateClass name ∉ memberFaults recorded ms := by
  induction ms generalizing recorded with
  | nil => exact List.not_mem_nil
  | cons m ms ih =>
    rw [memberFaults, List.mem_append, not_or]
    refine ⟨fun h => ?_, ih _⟩
    obtain ⟨fault, -, hfault⟩ := List.mem_map.1 h
    cases hfault

theorem duplicateClass_notMem_classFaults {names recorded : List String} {cs : List ClassDecl}
    (h : (names ++ cs.map (·.name)).Nodup) (name : String) :
    .duplicateClass name ∉ classFaults names recorded cs := by
  induction cs generalizing names recorded with
  | nil => exact List.not_mem_nil
  | cons c cs ih =>
    rw [List.map_cons, List.append_cons] at h
    have hc : c.name ∉ names := by
      have hnodup := h.of_append_left
      rw [List.nodup_append] at hnodup
      exact fun hm => hnodup.2.2 _ hm _ (List.mem_singleton_self _) rfl
    rw [classFaults, if_neg hc, List.nil_append, List.mem_append, not_or]
    exact ⟨duplicateClass_notMem_memberFaults recorded _, ih h⟩

/-- Collected classes have different names, so it is never for their names that they cannot be
bound. -/
theorem generate_ne_duplicateClass (options : Options) (sources : List Source) (name : String) :
    generate options sources ≠ .error (.binding (.duplicateClass name)) := by
  intro h
  rw [generate, generateWithSummary] at h
  cases hclasses : collectClasses sources with
  | error e =>
    rw [hclasses] at h
    obtain rfl : e = .binding (.duplicateClass name) := Except.error.inj h
    obtain ⟨_, source, _, _, -, -, -, he⟩ := collectClasses_eq_error_iff.1 hclasses
    cases he
  | ok classes =>
    obtain ⟨all, -, hd, rfl⟩ := collectClasses_eq_ok_iff.1 hclasses
    rw [hclasses] at h
    cases hfile : BindingFile.ofClasses options (sources.map (·.path)) (all.map (·.1)) with
    | ok u =>
      simp only [hfile, bind, Except.bind, Except.mapError] at h
      cases h
    | error e =>
      simp only [hfile, bind, Except.bind, Except.mapError] at h
      obtain rfl : e = .duplicateClass name := GenerateError.binding.inj (Except.error.inj h)
      have hreports := BindingFile.reports_ofClasses options (sources.map (·.path)) (all.map (·.1))
      have hhead := List.mem_of_mem_head? (hreports.eq_error_iff.1 hfile)
      refine duplicateClass_notMem_classFaults ?_ name hhead
      rw [List.nil_append, List.map_map]
      exact hd

/-- Sources can be collected exactly if each of them can be read and no two classes share a name,
and then their classes come in order. Otherwise the first source that cannot be added to those
before it is reported: because its text is wrong, or else because of its first class whose name was
declared before, with the path where that was. Later steps find no class twice. -/
theorem collectClasses_outcome (sources : List Source) :
    (∀ classes, collectClasses sources = .ok classes ↔
      ∃ all, Declare sources all ∧ DistinctNames all ∧ classes = all.map (·.1)) ∧
    (∀ e, collectClasses sources = .error e ↔
      ∃ before source after seen, sources = before ++ source :: after ∧ Declare before seen ∧
        DistinctNames seen ∧ source.Rejected seen e) ∧
    ∀ options name, generate options sources ≠ .error (.binding (.duplicateClass name)) :=
  ⟨fun _ => collectClasses_eq_ok_iff, fun _ => collectClasses_eq_error_iff,
    fun options => generate_ne_duplicateClass options sources⟩

/-- The class that stands twice is named with the source that declared it first. -/
example : collectClasses [⟨"a.h", "class ObjA :\n"⟩, ⟨"b.h", "class ObjB :\nclass ObjA :\n"⟩] =
    .error (.duplicateClass "ObjA" "a.h" "b.h") := by
  decide +kernel

end WrenGlue
