import WrenGlue.Proofs.Bindings.FileText
import WrenGlue.Proofs.Generate.Sources

/-! A generated file among the sources of the next one. It declares no class, so that it shows in
what is generated by its include, and in nothing else. -/

namespace WrenGlue

open WrenGlue.Bindings WrenGlue.Cpp
open WrenGlue.Header (readClasses)

/-- A generated file is a header without classes, if no path of its sources holds a line feed. -/
theorem readClasses_of_generate {options : Options} {sources : List Source} {code : String}
    (hpaths : ∀ source ∈ sources, '\n' ∉ source.path.toList)
    (h : generate options sources = .ok code) : readClasses code = .ok [] := by
  obtain ⟨classes, u, hclasses, hu, rfl⟩ := generate_eq_ok_iff.1 h
  obtain ⟨rfl, hsources⟩ := BindingFile.eq_of_ofClasses hu
  have hfor := BindingFile.isFor hu
  have hlines : BindingFile.HaveSingleLines u.options u.sources classes :=
    hsources ▸ .of_collectClasses hclasses fun _ => hpaths
  have hnames := isClassName_of_collectClasses hclasses
  exact Header.readClasses_text fun line hline =>
    ⟨BindingFile.hasSingleLines_code hfor hlines line hline,
      (BindingFile.begins_lines hfor hnames line hline).undeclaring⟩

/-! ### A source without classes -/

section Insert

variable {path text : String} (h : readClasses text = .ok [])
include h

theorem addSources_insert (seen : List Declared) (front back : List Source) :
    addSources seen (front ++ ⟨path, text⟩ :: back) = addSources seen (front ++ back) := by
  induction front generalizing seen with
  | nil =>
    rw [List.nil_append, addSources, h]
    rfl
  | cons source front ih => simp only [List.cons_append, addSources, ih]

theorem collectClasses_insert (front back : List Source) :
    collectClasses (front ++ ⟨path, text⟩ :: back) = collectClasses (front ++ back) := by
  rw [collectClasses, addSources_insert h, collectClasses]

/-- What follows the includes does not change. -/
theorem exists_generate_insert (options : Options) (front back : List Source) :
    ∃ body : Except GenerateError String,
      generate options (front ++ back) = (openingText options ++
        includesText options ((front ++ back).map (·.path)) ++ ·) <$> body ∧
      generate options (front ++ ⟨path, text⟩ :: back) = (openingText options ++
        includesText options ((front ++ ⟨path, text⟩ :: back).map (·.path)) ++ ·) <$> body := by
  refine ⟨collectClasses (front ++ back) >>= bodyText options, ?_, ?_⟩
  · rw [generate_eq_bodyText, map_bind]
    rfl
  · rw [generate_eq_bodyText, collectClasses_insert h, map_bind]
    rfl

end Insert

/-! ### Includes -/

/-- The lines that include sources. -/
def includeTexts (sources : List Source) : String :=
  String.join (sources.map fun source => includeLine (includePath source.path) ++ "\n")

theorem includeTexts_append (a b : List Source) :
    includeTexts (a ++ b) = includeTexts a ++ includeTexts b := by
  simp [includeTexts, String.join_append]

theorem includeTexts_insert (source : Source) (front back : List Source) :
    includeTexts (front ++ source :: back) = includeTexts front ++
      (includeLine (includePath source.path) ++ "\n") ++ includeTexts back := by
  rw [List.append_cons, includeTexts_append, includeTexts_append]
  simp [includeTexts]

/-- The includes stand between a title and an empty line, if there are any. -/
theorem includesText_eq {options : Options} (ho : options.includeSources = true)
    {sources : List Source} (hs : sources ≠ []) :
    includesText options (sources.map (·.path)) =
      "// Includes for the declaration sources\n" ++ includeTexts sources ++ "\n" := by
  have hline : ∀ path, Page.lineAt 0 (includeLine path) = includeLine path ++ "\n" := by
    simp [Page.lineAt, includeLine]
  have htitle : Page.lineAt 0 "// Includes for the declaration sources" =
      "// Includes for the declaration sources\n" := rfl
  have hblank : Page.lineAt 0 "" = "\n" := rfl
  rw [includesText, if_pos ho, includeLines, if_neg (by simpa using hs)]
  simp [includeTexts, Function.comp_def, hline, htitle, hblank, String.append_assoc]

/-- A file that was generated is nothing but an include among the sources of another one: the same
errors are reported, and what is generated is the same but for the line of the include, which stands
where the source does. The first include comes with a title above and an empty line below. -/
theorem generated_inert {options : Options} {sources : List Source} {code : String}
    (hpaths : ∀ source ∈ sources, '\n' ∉ source.path.toList)
    (h : generate options sources = .ok code) :
    readClasses code = .ok [] ∧
    ∀ (options' : Options) (front back : List Source) (path : String),
      (∀ e, generate options' (front ++ ⟨path, code⟩ :: back) = .error e ↔
        generate options' (front ++ back) = .error e) ∧
      ∀ other, generate options' (front ++ back) = .ok other →
        (options'.includeSources = false →
          generate options' (front ++ ⟨path, code⟩ :: back) = .ok other) ∧
        (options'.includeSources = true → front ++ back ≠ [] → ∃ above below,
          other = above ++ includeTexts front ++ includeTexts back ++ below ∧
          generate options' (front ++ ⟨path, code⟩ :: back) = .ok (above ++ includeTexts front ++
            (includeLine (includePath path) ++ "\n") ++ includeTexts back ++ below)) ∧
        (options'.includeSources = true → front ++ back = [] → ∃ above below,
          other = above ++ below ∧
          generate options' (front ++ ⟨path, code⟩ :: back) = .ok (above ++
            "// Includes for the declaration sources\n" ++
            (includeLine (includePath path) ++ "\n") ++ "\n" ++ below)) := by
  have hread := readClasses_of_generate hpaths h
  refine ⟨hread, fun options' front back path => ?_⟩
  obtain ⟨body, hwithout, hwith⟩ := @exists_generate_insert path code hread options' front back
  rw [hwithout, hwith]
  cases body with
  | error e => simp
  | ok body =>
    refine ⟨fun e => by simp, ?_⟩
    rintro other ⟨⟩
    refine ⟨fun ho => ?_, fun ho hs => ?_, fun ho hs => ?_⟩
    · simp [includesText_of_not ho]
    · refine ⟨openingText options' ++ "// Includes for the declaration sources\n", "\n" ++ body,
        ?_, ?_⟩
      · rw [includesText_eq ho hs, includeTexts_append]
        simp only [String.append_assoc]
      · rw [includesText_eq ho (by simp), includeTexts_insert]
        simp [String.append_assoc]
    · refine ⟨openingText options', body, ?_, ?_⟩
      · rw [hs]
        simp [includesText, includeLines]
      · obtain ⟨rfl, rfl⟩ := List.append_eq_nil_iff.1 hs
        rw [includesText_eq ho (by simp), includeTexts_insert]
        simp [includeTexts, String.append_assoc]

/-- A generated file behind the header that it was generated from. -/
theorem generated_inert_behind : ∃ code,
    ((∀ source ∈ [(⟨"a.h", "class ObjA \x7b\nWREN_METHOD() int One();\n"⟩ : Source)],
        '\n' ∉ source.path.toList) ∧
      generate {} [⟨"a.h", "class ObjA \x7b\nWREN_METHOD() int One();\n"⟩] = .ok code) ∧
    readClasses code = .ok [] ∧
    ∃ above below, code = above ++ "#include \"a.h\"\n" ++ below ∧
      generate {} [⟨"a.h", "class ObjA \x7b\nWREN_METHOD() int One();\n"⟩, ⟨"gen.cpp", code⟩] =
        .ok (above ++ "#include \"a.h\"\n" ++ "#include \"gen.h\"\n" ++ below) := by
  have hpaths : ∀ source ∈ [(⟨"a.h", "class ObjA \x7b\nWREN_METHOD() int One();\n"⟩ : Source)],
      '\n' ∉ source.path.toList := by
    decide
  obtain ⟨code, hcode⟩ := @exists_eq_ok _ _
    (generate {} [⟨"a.h", "class ObjA \x7b\nWREN_METHOD() int One();\n"⟩]) (by decide +kernel)
  obtain ⟨hread, hinsert⟩ := generated_inert hpaths hcode
  obtain ⟨-, hbeside, -⟩ := (hinsert {} [⟨"a.h", "class ObjA \x7b\nWREN_METHOD() int One();\n"⟩] []
    "gen.cpp").2 code hcode
  obtain ⟨above, below, hold, hnew⟩ := hbeside rfl (by simp)
  have hheader : includeTexts [⟨"a.h", "class ObjA \x7b\nWREN_METHOD() int One();\n"⟩] =
      "#include \"a.h\"\n" := by
    decide
  have hgenerated : includeLine (includePath "gen.cpp") ++ "\n" = "#include \"gen.h\"\n" := by decide
  have hnone : includeTexts [] = "" := rfl
  rw [hheader, hnone, String.append_empty] at hold
  rw [hheader, hnone, String.append_empty, hgenerated] at hnew
  exact ⟨code, ⟨hpaths, hcode⟩, hread, above, below, hold, hnew⟩

/-- A generated file as the only source. It brings more than its include with it. -/
theorem generated_brings_title : ∃ code more, generate {} [] = .ok code ∧
    generate {} [⟨"gen.h", code⟩] = .ok more ∧
    ¬ ∃ above below, code = above ++ below ∧ more = above ++ "#include \"gen.h\"\n" ++ below := by
  obtain ⟨code, hcode⟩ := @exists_eq_ok _ _ (generate {} []) (by decide +kernel)
  have hread := readClasses_of_generate (by simp) hcode
  obtain ⟨body, hwithout, hwith⟩ := @exists_generate_insert "gen.h" code hread {} [] []
  rw [List.append_nil, hcode] at hwithout
  cases body with
  | error e => cases hwithout
  | ok body =>
    obtain rfl := Except.ok.inj hwithout
    refine ⟨_, _, hcode, hwith, ?_⟩
    rintro ⟨above, below, hsplit, hmore⟩
    -- The title and the empty line are part of the new file only.
    have hblock : (includesText {} ["gen.h"]).length = 58 := by decide +kernel
    have hline : ("#include \"gen.h\"\n" : String).length = 17 := by decide +kernel
    have hnone : (includesText {} []).length = 0 := by decide
    have hlong := congrArg String.length hsplit
    have hlonger := congrArg String.length hmore
    simp only [List.nil_append, List.map_cons, List.map_nil, String.length_append, hblock, hline,
      hnone] at hlong hlonger
    omega

end WrenGlue
