import WrenGlue.CommandLine
import WrenGlue.Proofs.Bindings.Binding
import Mathlib.Data.List.TakeWhile

/-! The spellings of what a command line gives. A piece of a command line can be spelled in several
ways, and what it comes to does not depend on which. -/

namespace WrenGlue.CommandLine

/-! ### Spellings -/

/-- What a piece of a command line gives, however it is spelled. -/
inductive Part where
  | file (name : String)
  | output (value : String)
  | switch (s : Switch)
deriving DecidableEq, Repr

def Switch.longNames : Switch → List String
  | debugGc => ["debug-gc", "debug"]
  | noIncludes => ["no-includes"]
  | verbose => ["verbose"]
  | quiet => ["quiet"]
  | help => ["help"]
  | version => ["version"]

def Switch.letter? : Switch → Option Char
  | verbose => some 'v'
  | quiet => some 'q'
  | help => some 'h'
  | version => some 'V'
  | debugGc | noIncludes => none

/-- The letters of `cluster` stand for the switches `run`. -/
def IsCluster (run : List Switch) (cluster : String) : Prop :=
  List.Forall₂ (fun s letter => s.letter? = some letter) run cluster.toList

/-- The words that give the switches `run` and behind them the output `value`. -/
inductive OutputWords (value : String) : List Switch → List String → Prop
  | long : OutputWords value [] ["--output=" ++ value]
  | longApart : OutputWords value [] ["--output", value]
  | attached {run : List Switch} {cluster : String} : IsCluster run cluster →
      OutputWords value run ["-" ++ cluster ++ "o" ++ value]
  | assigned {run : List Switch} {cluster : String} : IsCluster run cluster →
      OutputWords value run ["-" ++ cluster ++ "o=" ++ value]
  | apart {run : List Switch} {cluster : String} : IsCluster run cluster →
      OutputWords value run ["-" ++ cluster ++ "o", value]

/-- A word that is no option. -/
def IsPlainWord (word : String) : Prop := word.toList.head? ≠ some '-' ∨ word = "-"

/-- The words spell the parts, in their order. -/
inductive Spells : List Part → List String → Prop
  | nil : Spells [] []
  | terminated (names : List String) : Spells (names.map .file) ("--" :: names)
  | file {name : String} {parts : List Part} {words : List String} : IsPlainWord name →
      Spells parts words → Spells (.file name :: parts) (name :: words)
  | long {s : Switch} {name : String} {parts : List Part} {words : List String} :
      name ∈ s.longNames → Spells parts words →
      Spells (.switch s :: parts) (("--" ++ name) :: words)
  | cluster {run : List Switch} {cluster : String} {parts : List Part} {words : List String} :
      IsCluster run cluster → run ≠ [] → Spells parts words →
      Spells (run.map .switch ++ parts) (("-" ++ cluster) :: words)
  | output {run : List Switch} {value : String} {front : List String} {parts : List Part}
      {words : List String} : OutputWords value run front → Spells parts words →
      Spells (run.map .switch ++ .output value :: parts) (front ++ words)

/-- A value that is taken for one in every spelling of the output option. -/
def IsOutputValue (value : String) : Prop :=
  value ≠ "" ∧ value.toList.head? ≠ some '-' ∧ value.toList.head? ≠ some '='

/-! ### What parts come to -/

namespace Part

def file? : Part → Option String
  | file name => some name
  | output _ | switch _ => none

def output? : Part → Option String
  | output value => some value
  | file _ | switch _ => none

/-- What has been given once the part is added, nothing pending. -/
def addTo (g : Given) : Part → Given
  | file name => { g with files := g.files ++ [name] }
  | output value => { g with output := some value }
  | switch .debugGc => { g with debugGc := true }
  | switch .noIncludes => { g with noIncludes := true }
  | switch .verbose => { g with verbose := min (g.verbose + 1) Given.maxVerbose }
  | switch .quiet => { g with quiet := true }
  | switch .help | switch .version => g

/-- The part is complete and was not given before. -/
def Fits (g : Given) : Part → Prop
  | file name => name ≠ ""
  | output value => g.output = none ∧ IsOutputValue value
  | switch .debugGc => g.debugGc = false
  | switch .noIncludes => g.noIncludes = false
  | switch .verbose => True
  | switch .quiet => g.quiet = false
  | switch .help | switch .version => False

/-- At most one of the two may be given. -/
def Excludes : Part → Part → Prop
  | output _, output _ => True
  | switch s, switch s' => s = s' ∧ s ≠ .verbose
  | _, _ => False

theorem Excludes.symm {p q : Part} (h : p.Excludes q) : q.Excludes p := by
  cases p with
  | file => cases q <;> exact h
  | output => cases q <;> exact h
  | switch s => cases q with
    | file | output => exact h
    | switch s' =>
      obtain ⟨rfl, hs⟩ := h
      exact ⟨rfl, hs⟩

/-- A part leaves room for all parts that it does not exclude. -/
theorem Fits.addTo {g : Given} {p q : Part} (h : q.Fits g) (hpq : ¬ p.Excludes q) :
    q.Fits (p.addTo g) := by
  cases p with
  | file name => cases q with
    | file | output => exact h
    | switch s => cases s <;> exact h
  | output value => cases q with
    | file => exact h
    | output => exact absurd trivial hpq
    | switch s => cases s <;> exact h
  | switch s => cases q with
    | file | output => cases s <;> exact h
    | switch s' => cases s <;> cases s' <;> simp_all [Excludes, Fits, Part.addTo]

end Part

/-- What parts give, all together. -/
theorem foldl_addTo (parts : List Part) {g : Given} (hg : g.verbose ≤ Given.maxVerbose) :
    parts.foldl Part.addTo g = { g with
      files := g.files ++ parts.filterMap Part.file?
      output := (parts.filterMap Part.output?).getLast?.or g.output
      debugGc := g.debugGc || parts.contains (.switch .debugGc)
      noIncludes := g.noIncludes || parts.contains (.switch .noIncludes)
      verbose := min (g.verbose + parts.count (.switch .verbose)) Given.maxVerbose
      quiet := g.quiet || parts.contains (.switch .quiet) } := by
  induction parts generalizing g with
  | nil => simp [hg]
  | cons p parts ih =>
    have hadd : (p.addTo g).verbose ≤ Given.maxVerbose := by
      cases p with
      | file | output => exact hg
      | switch s =>
        cases s with
        | verbose => exact Nat.min_le_right _ _
        | debugGc | noIncludes | quiet | help | version => exact hg
    rw [List.foldl_cons, ih hadd]
    cases p with
    | file name => simp [Part.addTo, List.filterMap_cons, Part.file?, Part.output?]
    | output value =>
      simp [Part.addTo, List.filterMap_cons, Part.file?, Part.output?, List.getLast?_cons]
    | switch s =>
      cases s with
      | verbose =>
        simp [Part.addTo, List.filterMap_cons, Part.file?, Part.output?]
        omega
      | debugGc | noIncludes | quiet | help | version =>
        simp [Part.addTo, List.filterMap_cons, Part.file?, Part.output?]

/-! ### Reading parts -/

namespace Given

variable {g t : Given}

/-- The parts can be added one behind the other. -/
def Takes : Given → List Part → Prop
  | _, [] => True
  | t, p :: parts => p.Fits t ∧ (p.addTo t).Takes parts

theorem takes_append {a b : List Part} :
    t.Takes (a ++ b) ↔ t.Takes a ∧ (a.foldl Part.addTo t).Takes b := by
  induction a generalizing t with
  | nil => exact (iff_of_eq (true_and _)).symm
  | cons p a ih => rw [List.cons_append, Takes, Takes, ih, and_assoc, List.foldl_cons]

theorem takes_of_pairwise {parts : List Part} (hfits : ∀ p ∈ parts, p.Fits t)
    (h : parts.Pairwise fun p q => ¬ p.Excludes q) : t.Takes parts := by
  induction parts generalizing t with
  | nil => trivial
  | cons p parts ih =>
    obtain ⟨hp, hparts⟩ := List.forall_mem_cons.1 hfits
    obtain ⟨hnone, hrest⟩ := List.pairwise_cons.1 h
    exact ⟨hp, ih (fun q hq => (hparts q hq).addTo (hnone q hq)) hrest⟩

/-- What was given comes to `t`, once the pending values have been looked at. -/
def ComesTo (g t : Given) : Prop := g.settle = .ok t

theorem comesTo_of_pending_eq_none (h : g.pending = .none) : g.ComesTo g := by
  rw [ComesTo, settle, h]

theorem pending_eq_none (h : g.ComesTo t) : t.pending = .none := by
  rw [ComesTo, settle] at h
  split at h
  · cases h
    assumption
  · split at h
    · cases h
    · cases h
      rfl
  · cases h
  · rw [setOutput] at h
    split at h
    · cases h
    · split at h
      · cases h
      · cases h
        rfl

theorem addFile_comesTo (h : g.ComesTo t) {name : String} (hname : name ≠ "") :
    ∃ g', g.addFile name = .ok g' ∧ g'.ComesTo (Part.addTo t (.file name)) := by
  have hnone := pending_eq_none h
  cases hp : g.pending with
  | files names =>
    rw [ComesTo, settle, hp] at h
    by_cases hm : "" ∈ names
    · simp [hm, fail] at h
    · simp only [hm, if_false] at h
      cases h
      refine ⟨_, by rw [addFile, hp], ?_⟩
      simp [ComesTo, settle, hm, hname.symm, Part.addTo]
  | none | output value =>
    refine ⟨{ t with pending := .files [name] }, ?_, ?_⟩
    · rw [addFile, hp, h]
      rfl
    · simp [ComesTo, settle, hname.symm, Part.addTo, hnone]

theorem addPlain_comesTo (h : g.ComesTo t) {name : String} (hname : name ≠ "") :
    ∃ g', g.addPlain name = .ok g' ∧ g'.ComesTo (Part.addTo t (.file name)) := by
  have hadd : g.addPlain name = g.addFile name := by
    rw [addPlain]
    split
    · next hp =>
      rw [ComesTo, settle, hp] at h
      cases h
    · rfl
  rw [hadd]
  exact addFile_comesTo h hname

theorem switch_comesTo (h : g.ComesTo t) {s : Switch} (hs : (Part.switch s).Fits t) :
    ∃ g', g.switch s = .ok g' ∧ g'.ComesTo (Part.addTo t (.switch s)) := by
  have hnone := pending_eq_none h
  refine ⟨Part.addTo t (.switch s), ?_, comesTo_of_pending_eq_none ?_⟩
  · rw [switch, h]
    cases s with
    | verbose => rfl
    | debugGc | noIncludes | quiet =>
      rw [Part.Fits] at hs
      simp [bind, Except.bind, pure, Except.pure, hs, Part.addTo]
    | help | version => cases hs
  · cases s <;> exact hnone

theorem takeOutput_comesTo (h : g.ComesTo t) {value : String} (hv : (Part.output value).Fits t) :
    ∃ g', g.takeOutput (some value) = .ok g' ∧ g'.ComesTo (Part.addTo t (.output value)) := by
  have hnone := pending_eq_none h
  obtain ⟨hout, hvalue⟩ := hv
  refine ⟨Part.addTo t (.output value), ?_, comesTo_of_pending_eq_none hnone⟩
  rw [takeOutput, h]
  show t.setOutput value = _
  simp [setOutput, hout, hvalue.1, Part.addTo]

/-- The value of the output option may be a word of its own. -/
theorem takeOutput_apart_comesTo (h : g.ComesTo t) {value : String}
    (hv : (Part.output value).Fits t) : ∃ asked, g.takeOutput none = .ok asked ∧
      ∃ g', asked.addPlain value = .ok g' ∧ g'.ComesTo (Part.addTo t (.output value)) := by
  have hnone := pending_eq_none h
  obtain ⟨hout, hvalue⟩ := hv
  refine ⟨{ t with pending := .output none }, ?_, { t with pending := .output (some value) }, rfl,
    ?_⟩
  · rw [takeOutput, h]
    rfl
  · simp [ComesTo, settle, setOutput, hout, hvalue.1, Part.addTo, hnone]

/-! ### Reading words -/

theorem addWord_plain {word : String} (h : IsPlainWord word) :
    g.addWord word = g.addPlain word := by
  rcases h with h | rfl
  · rw [addWord]
    split
    · next hword => simp [hword] at h
    · next hword => simp [hword] at h
    · rfl
  · rfl

theorem ne_equals_of_mem {name : String} (h : '=' ∉ name.toList) :
    ∀ c ∈ name.toList, decide (c ≠ '=') = true := by
  intro c hc
  exact decide_eq_true fun heq => h (heq ▸ hc)

theorem addWord_long {name : String} (h : '=' ∉ name.toList) :
    g.addWord ("--" ++ name) = g.addLong name none := by
  have hall := ne_equals_of_mem h
  have hword : ("--" ++ name).toList = '-' :: '-' :: name.toList := by simp
  simp only [addWord, hword]
  rw [List.takeWhile_eq_self_iff.2 hall, List.dropWhile_eq_nil_iff.2 hall, String.ofList_toList]

theorem addWord_long_assigned {name : String} (h : '=' ∉ name.toList) (value : String) :
    g.addWord ("--" ++ name ++ "=" ++ value) = g.addLong name (some value) := by
  have hall := ne_equals_of_mem h
  have hword : ("--" ++ name ++ "=" ++ value).toList =
      '-' :: '-' :: (name.toList ++ '=' :: value.toList) := by simp
  simp only [addWord, hword]
  rw [List.takeWhile_append_of_pos hall, List.dropWhile_append_of_pos hall]
  simp

theorem addWord_letters {letters : String} (hne : letters ≠ "")
    (h : letters.toList.head? ≠ some '-') :
    g.addWord ("-" ++ letters) = g.addLetters letters.toList := by
  cases hletters : letters.toList with
  | nil => exact absurd (String.toList_eq_nil_iff.1 hletters) hne
  | cons first rest =>
    have hword : ("-" ++ letters).toList = '-' :: first :: rest := by simp [hletters]
    rw [addWord, hword]
    split
    · next heq =>
      cases heq
      simp [hletters] at h
    · next heq =>
      cases heq
      rfl
    · next hno => exact absurd rfl (hno first rest)

theorem ofLetter?_of_letter? {s : Switch} {letter : Char} (h : s.letter? = some letter) :
    OptionName.ofLetter? letter = some (.switch s) := by
  cases s <;> cases h <;> rfl

theorem ofLong?_of_mem {s : Switch} {name : String} (h : name ∈ s.longNames) :
    OptionName.ofLong? name = some (.switch s) ∧ '=' ∉ name.toList := by
  revert name
  cases s <;> decide

/-- The letters of a cluster add their switches, whatever follows them in the word. -/
theorem addLetters_run {run : List Switch} {letters : List Char}
    (hrun : List.Forall₂ (fun s letter => s.letter? = some letter) run letters) (h : g.ComesTo t)
    (ht : t.Takes (run.map .switch)) :
    ∃ g' : Given, g'.ComesTo ((run.map .switch).foldl Part.addTo t) ∧
      ∀ rest, g.addLetters (letters ++ rest) = g'.addLetters rest := by
  induction hrun generalizing g t with
  | nil => exact ⟨g, h, fun rest => rfl⟩
  | @cons s letter run letters hletter _ ih =>
    rw [List.map_cons, Takes] at ht
    obtain ⟨g', hswitch, hg'⟩ := switch_comesTo h ht.1
    obtain ⟨last, hlast, hread⟩ := ih hg' ht.2
    refine ⟨last, hlast, fun rest => ?_⟩
    rw [List.cons_append, addLetters, ofLetter?_of_letter? hletter]
    show (g.switch s >>= fun g' => g'.addLetters (letters ++ rest)) = _
    rw [hswitch, ← hread]
    rfl

theorem ne_dash_of_isCluster {run : List Switch} {cluster : String} (h : IsCluster run cluster) :
    ∀ letter ∈ cluster.toList, letter ≠ '-' := by
  rintro letter hletter rfl
  obtain ⟨s, -, hs⟩ := exists_mem_of_forall₂ h hletter
  cases s <;> cases hs

/-- A cluster with the letter of the output option behind it, and perhaps a value attached. -/
theorem addWord_cluster_output {run : List Switch} {cluster : String} (hrun : IsCluster run cluster)
    (h : g.ComesTo t) (ht : t.Takes (run.map .switch)) (rest : String) :
    ∃ g' : Given, g'.ComesTo ((run.map .switch).foldl Part.addTo t) ∧
      g.addWord ("-" ++ cluster ++ "o" ++ rest) = g'.takeOutput (attached? rest.toList) := by
  obtain ⟨g', hg', hread⟩ := addLetters_run hrun h ht
  refine ⟨g', hg', ?_⟩
  have hhead : (cluster ++ ("o" ++ rest)).toList.head? ≠ some '-' := by
    intro hhead
    have hmem : '-' ∈ cluster.toList := by
      cases hc : cluster.toList with
      | nil => simp [hc] at hhead
      | cons first others => exact List.mem_cons.2 (.inl (by simpa [hc] using hhead.symm))
    exact ne_dash_of_isCluster hrun '-' hmem rfl
  rw [String.append_assoc, String.append_assoc, addWord_letters (by simp) hhead]
  rw [String.toList_append, String.toList_append, hread]
  rfl

theorem addLong_switch {name : String} {s : Switch}
    (h : OptionName.ofLong? name = some (.switch s)) : g.addLong name none = g.switch s := by
  unfold addLong
  rw [h]

theorem addLong_output (value : Option String) :
    g.addLong "output" value = g.takeOutput value := by
  unfold addLong
  rfl

theorem addWords_cons {word : String} (hword : word ≠ "--") {g' : Given}
    (h : g.addWord word = .ok g') (words : List String) :
    g.addWords (word :: words) = g'.addWords words := by
  rw [addWords, if_neg hword, h]
  rfl

/-- A value that is no option follows as a word of its own. -/
theorem addWords_value {value : String} (hvalue : IsOutputValue value) {asked : Given}
    {word : String} (hword : word ≠ "--") (h : g.addWord word = .ok asked) (words : List String)
    {g' : Given} (hadd : asked.addPlain value = .ok g') :
    g.addWords (word :: value :: words) = g'.addWords words := by
  have hplain : IsPlainWord value := .inl hvalue.2.1
  have hne : value ≠ "--" := by
    rintro rfl
    exact hvalue.2.1 (by decide)
  rw [addWords_cons hword h, addWords_cons hne ((addWord_plain hplain).trans hadd)]

theorem attached?_value {value : String} (h : IsOutputValue value) :
    attached? value.toList = some value ∧ attached? ("=" ++ value).toList = some value := by
  constructor
  · rw [attached?]
    · rw [String.ofList_toList]
    · exact fun hnil => h.1 (String.toList_eq_nil_iff.1 hnil)
    · rintro rest hrest
      exact h.2.2 (by rw [hrest]; rfl)
  · rw [String.toList_append]
    show some (String.ofList value.toList) = _
    rw [String.ofList_toList]

/-- The words of an output option add the switches in front of it and its value. -/
theorem addWords_output {run : List Switch} {value : String} {front : List String}
    (hfront : OutputWords value run front) (h : g.ComesTo t)
    (ht : t.Takes (run.map Part.switch ++ [Part.output value])) (words : List String) :
    ∃ g' : Given, g'.ComesTo ((run.map Part.switch ++ [Part.output value]).foldl Part.addTo t) ∧
      g.addWords (front ++ words) = g'.addWords words := by
  rw [takes_append] at ht
  obtain ⟨hswitches, hfits, -⟩ := ht
  have hvalue := hfits.2
  have hne : ∀ word : String, 'o' ∈ word.toList → word ≠ "--" := by
    rintro word hword rfl
    exact absurd hword (by decide)
  rw [List.foldl_append]
  cases hfront with
  | long =>
    have hlong : "--output=" = "--" ++ "output" ++ "=" := by decide
    obtain ⟨g', htake, hg'⟩ := takeOutput_comesTo h hfits
    refine ⟨g', hg', addWords_cons (hne _ (by simp)) ?_ words⟩
    rw [hlong, addWord_long_assigned (by decide), addLong_output, htake]
  | longApart =>
    have hlong : "--output" = "--" ++ "output" := by decide
    obtain ⟨asked, hasked, g', hadd, hg'⟩ := takeOutput_apart_comesTo h hfits
    refine ⟨g', hg', addWords_value hvalue (by decide) ?_ words hadd⟩
    rw [hlong, addWord_long (by decide), addLong_output, hasked]
  | @attached _ cluster hrun =>
    obtain ⟨g₁, hg₁, hword⟩ := addWord_cluster_output hrun h hswitches value
    obtain ⟨g', htake, hg'⟩ := takeOutput_comesTo hg₁ hfits
    refine ⟨g', hg', addWords_cons (hne _ (by simp)) ?_ words⟩
    rw [hword, (attached?_value hvalue).1, htake]
  | @assigned _ cluster hrun =>
    obtain ⟨g₁, hg₁, hword⟩ := addWord_cluster_output hrun h hswitches ("=" ++ value)
    obtain ⟨g', htake, hg'⟩ := takeOutput_comesTo hg₁ hfits
    have hletter : "o=" = "o" ++ "=" := by decide
    refine ⟨g', hg', addWords_cons (hne _ (by simp)) ?_ words⟩
    rw [hletter, ← String.append_assoc, String.append_assoc, hword, (attached?_value hvalue).2,
      htake]
  | @apart _ cluster hrun =>
    obtain ⟨g₁, hg₁, hword⟩ := addWord_cluster_output hrun h hswitches ""
    obtain ⟨asked, hasked, g', hadd, hg'⟩ := takeOutput_apart_comesTo hg₁ hfits
    rw [String.append_empty] at hword
    exact ⟨g', hg', addWords_value hvalue (hne _ (by simp)) (hword.trans hasked) words hadd⟩

/-- All words behind the terminator are files. -/
theorem addWords_files (names : List String) (h : g.ComesTo t) (ht : t.Takes (names.map .file)) :
    ∃ g' : Given, names.foldlM addFile g = .ok g' ∧
      g'.ComesTo ((names.map .file).foldl Part.addTo t) := by
  induction names generalizing g t with
  | nil => exact ⟨g, rfl, h⟩
  | cons name names ih =>
    obtain ⟨g', hadd, hg'⟩ := addFile_comesTo h ht.1
    obtain ⟨last, hlast, hend⟩ := ih hg' ht.2
    refine ⟨last, ?_, hend⟩
    rw [List.foldlM_cons, hadd]
    exact hlast

/-- Words add what they spell. -/
theorem addWords_spelled {parts : List Part} {words : List String} (hw : Spells parts words)
    (h : g.ComesTo t) (ht : t.Takes parts) : ∃ g' : Given, g.addWords words = .ok g' ∧
      g'.ComesTo (parts.foldl Part.addTo t) := by
  induction hw generalizing g t with
  | nil => exact ⟨g, rfl, h⟩
  | terminated names =>
    rw [addWords, if_pos rfl]
    exact addWords_files names h ht
  | @file name parts words hplain _ ih =>
    obtain ⟨g', hadd, hg'⟩ := addPlain_comesTo h ht.1
    obtain ⟨last, hlast, hend⟩ := ih hg' ht.2
    refine ⟨last, ?_, hend⟩
    have hne : name ≠ "--" := by
      rintro rfl
      rcases hplain with hp | hp
      · exact hp (by decide)
      · exact absurd hp (by decide)
    rw [addWords_cons hne ((addWord_plain hplain).trans hadd), hlast]
  | @long s name parts words hname _ ih =>
    obtain ⟨hlong, hfree⟩ := ofLong?_of_mem hname
    obtain ⟨g', hswitch, hg'⟩ := switch_comesTo h ht.1
    obtain ⟨last, hlast, hend⟩ := ih hg' ht.2
    refine ⟨last, ?_, hend⟩
    have hne : "--" ++ name ≠ "--" := by
      revert name
      cases s <;> decide
    have hread : g.addWord ("--" ++ name) = .ok g' := by
      rw [addWord_long hfree, addLong_switch hlong, hswitch]
    rw [addWords_cons hne hread, hlast]
  | @cluster run cluster parts words hrun hne _ ih =>
    rw [takes_append] at ht
    obtain ⟨g', hg', hread⟩ := addLetters_run hrun h ht.1
    obtain ⟨last, hlast, hend⟩ := ih hg' ht.2
    refine ⟨last, ?_, by rwa [List.foldl_append]⟩
    have hempty : cluster ≠ "" := by
      rintro rfl
      cases hrun
      exact hne rfl
    have hhead : cluster.toList.head? ≠ some '-' := fun hhead =>
      ne_dash_of_isCluster hrun '-' (List.mem_of_head? hhead) rfl
    have hword : "-" ++ cluster ≠ "--" := by
      intro heq
      rw [show "--" = "-" ++ "-" by decide, String.append_right_inj] at heq
      exact hhead (by rw [heq]; rfl)
    have hletters := hread []
    rw [List.append_nil, addLetters] at hletters
    rw [addWords_cons hword ((addWord_letters hempty hhead).trans hletters), hlast]
  | @output run value front parts words hfront _ ih =>
    rw [List.append_cons, takes_append] at ht
    obtain ⟨g', hg', hread⟩ := addWords_output hfront h ht.1 words
    obtain ⟨last, hlast, hend⟩ := ih hg' ht.2
    rw [List.append_cons, List.foldl_append, hread]
    exact ⟨last, hlast, hend⟩

end Given

end WrenGlue.CommandLine
