import WrenGlue.Proofs.CommandLine.Spelling
import Mathlib.Data.List.Perm.Basic

/-! Command lines that ask for the same. The options of a job come in any order, between its files
or in front of them, and in any of their spellings. All of these command lines are read as the
job. -/

namespace WrenGlue

/-- The path of the file that the output goes to, if it goes to one. -/
def Destination.path? : Destination → Option String
  | stdout => none
  | file path => some path

namespace CommandLine

/-- How much is to be logged. -/
inductive Loudness where
  | quiet
  | verbose (count : Nat)
deriving DecidableEq, Repr

namespace Loudness

def isQuiet : Loudness → Bool
  | quiet => true
  | verbose _ => false

def count : Loudness → Nat
  | quiet => 0
  | verbose count => count

def parts : Loudness → List Part
  | quiet => [.switch .quiet]
  | verbose count => List.replicate count (.switch .verbose)

end Loudness

def Part.isOption : Part → Bool
  | file _ => false
  | output _ | switch _ => true

/-- The options that a job takes, in one of their orders. -/
def optionParts (job : Job) (loudness : Loudness) : List Part :=
  job.output.path?.toList.map .output
    ++ (if job.options.debugGc then [.switch .debugGc] else [])
    ++ (if job.options.includeSources then [] else [.switch .noIncludes])
    ++ loudness.parts

/-- The parts give the inputs of the job in their order, and the options it takes in any. -/
structure AskFor (parts : List Part) (job : Job) (loudness : Loudness) : Prop where
  files : parts.filterMap Part.file? = job.inputs
  options : (parts.filter Part.isOption).Perm (optionParts job loudness)

@[simp] theorem Loudness.mem_parts {p : Part} {l : Loudness} :
    p ∈ l.parts ↔ (p = .switch .quiet ∧ l.isQuiet = true) ∨
      (p = .switch .verbose ∧ l.count ≠ 0) := by
  cases l <;> simp [parts, isQuiet, count, and_comm]

section Options

variable (job : Job) (loudness : Loudness)

theorem mem_optionParts {p : Part} : p ∈ optionParts job loudness ↔
    (∃ path, job.output.path? = some path ∧ p = .output path) ∨
      (p = .switch .debugGc ∧ job.options.debugGc = true) ∨
      (p = .switch .noIncludes ∧ job.options.includeSources = false) ∨ p ∈ loudness.parts := by
  rw [optionParts, List.mem_append, List.mem_append, List.mem_append, or_assoc, or_assoc]
  cases job.options.debugGc <;> cases job.options.includeSources <;> simp [@eq_comm Part p]

theorem filterMap_optionParts :
    (optionParts job loudness).filterMap Part.output? = job.output.path?.toList := by
  have hout : (job.output.path?.toList.map Part.output).filterMap Part.output? =
      job.output.path?.toList := by
    cases job.output <;> rfl
  have hloud : loudness.parts.filterMap Part.output? = [] := by
    refine List.filterMap_eq_nil_iff.2 fun p hp => ?_
    rcases Loudness.mem_parts.1 hp with ⟨rfl, -⟩ | ⟨rfl, -⟩ <;> rfl
  rw [optionParts, List.filterMap_append, List.filterMap_append, List.filterMap_append, hout, hloud]
  cases job.options.debugGc <;> cases job.options.includeSources <;>
    simp [List.filterMap_cons, Part.output?]

theorem count_optionParts :
    (optionParts job loudness).count (.switch .verbose) = loudness.count := by
  have hout : (job.output.path?.toList.map Part.output).count (.switch .verbose) = 0 :=
    List.count_eq_zero.2 (by simp)
  have hloud : loudness.parts.count (.switch .verbose) = loudness.count := by
    cases loudness <;> simp [Loudness.parts, Loudness.count]
  rw [optionParts, List.count_append, List.count_append, List.count_append, hout, hloud]
  cases job.options.debugGc <;> cases job.options.includeSources <;> simp

/-- No option of a job is asked for twice, but for `-v`. -/
theorem pairwise_optionParts :
    (optionParts job loudness).Pairwise fun p q => ¬ p.Excludes q := by
  have hout : (job.output.path?.toList.map Part.output).Pairwise fun p q => ¬ p.Excludes q := by
    cases job.output <;> simp [Destination.path?]
  have hgc : (if job.options.debugGc then [.switch .debugGc] else []).Pairwise
      fun p q : Part => ¬ p.Excludes q := by
    split <;> simp
  have hincludes : (if job.options.includeSources then [] else [.switch .noIncludes]).Pairwise
      fun p q : Part => ¬ p.Excludes q := by
    split <;> simp
  have hloud : loudness.parts.Pairwise fun p q => ¬ p.Excludes q := by
    cases loudness with
    | quiet => exact List.pairwise_singleton _ _
    | verbose n => simp [Loudness.parts, List.pairwise_replicate, Part.Excludes]
  rw [optionParts, List.pairwise_append, List.pairwise_append, List.pairwise_append]
  -- What is left are pairs of different options.
  refine ⟨⟨⟨hout, hgc, ?_⟩, hincludes, ?_⟩, hloud, ?_⟩ <;>
    grind [Part.Excludes, Loudness.mem_parts]

end Options

namespace AskFor

variable {parts : List Part} {job : Job} {loudness : Loudness}

theorem mem_iff (h : AskFor parts job loudness) {p : Part} (hp : p.isOption = true) :
    p ∈ parts ↔ p ∈ optionParts job loudness := by
  rw [← h.options.mem_iff, List.mem_filter, and_iff_left hp]

theorem contains_eq (h : AskFor parts job loudness) {p : Part} (hp : p.isOption = true) :
    parts.contains p = (optionParts job loudness).contains p := by
  rw [Bool.eq_iff_iff, List.contains_iff_mem, List.contains_iff_mem, h.mem_iff hp]

theorem count_eq (h : AskFor parts job loudness) {p : Part} (hp : p.isOption = true) :
    parts.count p = (optionParts job loudness).count p := by
  rw [← h.options.count_eq, List.count_filter hp]

theorem name_mem (h : AskFor parts job loudness) {name : String} (hm : .file name ∈ parts) :
    name ∈ job.inputs := by
  rw [← h.files]
  exact List.mem_filterMap.2 ⟨_, hm, rfl⟩

/-- The output is asked for once, so its place among the parts does not matter. -/
theorem output_eq (h : AskFor parts job loudness) :
    parts.filterMap Part.output? = job.output.path?.toList := by
  have hfilter : (parts.filter Part.isOption).filterMap Part.output? =
      parts.filterMap Part.output? := by
    rw [List.filterMap_filter]
    refine List.filterMap_congr fun p _ => ?_
    cases p <;> rfl
  have hperm := h.options.filterMap Part.output?
  rw [hfilter, filterMap_optionParts] at hperm
  cases hpath : job.output.path? with
  | none =>
    rw [hpath] at hperm
    exact hperm.eq_nil
  | some path =>
    rw [hpath] at hperm
    exact hperm.eq_singleton

theorem fits (h : AskFor parts job loudness) (hnames : "" ∉ job.inputs)
    (hout : ∀ path, job.output.path? = some path → IsOutputValue path) :
    ∀ p ∈ parts, p.Fits {} := by
  intro p hp
  cases p with
  | file name =>
    rintro rfl
    exact hnames (h.name_mem hp)
  | output value =>
    rw [h.mem_iff rfl, mem_optionParts] at hp
    exact ⟨rfl, hout value (by simpa using hp)⟩
  | switch s =>
    cases s with
    | debugGc | noIncludes | quiet => rfl
    | verbose => trivial
    | help | version =>
      rw [h.mem_iff rfl, mem_optionParts] at hp
      simp at hp

theorem pairwise (h : AskFor parts job loudness) : parts.Pairwise fun p q => ¬ p.Excludes q := by
  have hoptions := pairwise_optionParts job loudness
  rw [← h.options.pairwise_iff fun hpq hqp => hpq hqp.symm, List.pairwise_filter] at hoptions
  refine hoptions.imp fun {p q} hpq => ?_
  cases p with
  | file => exact id
  | output => cases q with
    | file => exact id
    | output | switch => exact hpq rfl rfl
  | switch => cases q with
    | file => exact id
    | output | switch => exact hpq rfl rfl

theorem foldl_eq (h : AskFor parts job loudness) : parts.foldl Part.addTo {} = {
    files := job.inputs
    output := job.output.path?
    debugGc := job.options.debugGc
    noIncludes := !job.options.includeSources
    verbose := min loudness.count Given.maxVerbose
    quiet := loudness.isQuiet } := by
  have hdebug : (optionParts job loudness).contains (.switch .debugGc) = job.options.debugGc := by
    rw [Bool.eq_iff_iff, List.contains_iff_mem, mem_optionParts]
    simp
  have hincludes : (optionParts job loudness).contains (.switch .noIncludes) =
      !job.options.includeSources := by
    rw [Bool.eq_iff_iff, List.contains_iff_mem, mem_optionParts]
    simp
  have hquiet : (optionParts job loudness).contains (.switch .quiet) = loudness.isQuiet := by
    rw [Bool.eq_iff_iff, List.contains_iff_mem, mem_optionParts]
    simp
  rw [foldl_addTo parts (Nat.zero_le _), h.files, h.output_eq, h.contains_eq rfl, h.contains_eq rfl,
    h.contains_eq rfl, h.count_eq rfl, count_optionParts, hdebug, hincludes, hquiet]
  cases job.output.path? <;> simp

end AskFor

/-- Every command line that asks for a job is read as that job, whatever the order of its options
and files and however its options are spelled. -/
theorem read_arrangement {job : Job} {loudness : Loudness} {parts : List Part}
    {words : List String} (hfiles : job.inputs ≠ []) (hnames : "" ∉ job.inputs)
    (hout : ∀ path, job.output = .file path → IsOutputValue path)
    (hask : AskFor parts job loudness) (hwords : Spells parts words) :
    read words =
      .ok { job, verbose := min loudness.count 255, quiet := loudness.isQuiet } := by
  have hpath : ∀ path, job.output.path? = some path → IsOutputValue path := by
    intro path hp
    refine hout path ?_
    cases hd : job.output <;> simp_all [Destination.path?]
  have htakes : ({} : Given).Takes parts :=
    Given.takes_of_pairwise (hask.fits hnames hpath) hask.pairwise
  have hstart : ({} : Given).ComesTo {} := Given.comesTo_of_pending_eq_none rfl
  obtain ⟨g, hread, hend⟩ := Given.addWords_spelled hwords hstart htakes
  rw [hask.foldl_eq, Given.ComesTo] at hend
  have hconflict : ¬ (loudness.isQuiet = true ∧ min loudness.count Given.maxVerbose ≠ 0) := by
    cases loudness <;> simp [Loudness.isQuiet, Loudness.count]
  rw [read, hread]
  show g.settings = _
  rw [Given.settings, hend]
  simp only [bind, Except.bind, pure, Except.pure, if_neg hconflict, if_neg hfiles, Bool.not_not]
  obtain ⟨inputs, output, options⟩ := job
  cases output <;> rfl

/-- Any number of `-v` can be written in one word. -/
theorem isCluster_verbose (n : Nat) :
    IsCluster (List.replicate n .verbose) (String.ofList (List.replicate n 'v')) := by
  rw [IsCluster, String.toList_ofList]
  induction n with
  | zero => exact .nil
  | succ n ih => exact .cons rfl ih

/-- More of `-v` than are counted, in one word with `-o`, and files that look like options. -/
theorem read_arrangement_cluster :
    read ["-", "-" ++ String.ofList (List.replicate 300 'v') ++ "o", "out.cpp", "--debug", "a.h",
        "--no-includes", "--", "-q"] = .ok {
      job := {
        inputs := ["-", "a.h", "-q"]
        output := .file "out.cpp"
        options := { debugGc := true, includeSources := false } }
      verbose := 255
      quiet := false } := by
  have hwords : Spells
      (.file "-" :: ((List.replicate 300 Switch.verbose).map .switch ++ .output "out.cpp" ::
        [.switch .debugGc, .file "a.h", .switch .noIncludes, .file "-q"]))
      ["-", "-" ++ String.ofList (List.replicate 300 'v') ++ "o", "out.cpp", "--debug", "a.h",
        "--no-includes", "--", "-q"] := by
    refine .file (.inr rfl) (.output (.apart (isCluster_verbose 300)) ?_)
    refine @Spells.long .debugGc "debug" _ _ (by decide) (.file (.inl (by decide)) ?_)
    exact @Spells.long .noIncludes "no-includes" _ _ (by decide) (.terminated ["-q"])
  refine @read_arrangement _ (.verbose 300) _ _ (by decide) (by decide) ?_ ⟨?_, ?_⟩ hwords
  · rintro path ⟨rfl⟩
    exact ⟨by decide, by decide, by decide⟩
  · decide +kernel
  · decide +kernel

end CommandLine

end WrenGlue
