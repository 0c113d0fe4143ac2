import WrenGlue.Run
import WrenGlue.Proofs.Bindings.Signatures
import Mathlib.Logic.Function.Basic

/-! What a run leaves behind. Every input is read before anything is written, and the output is
written in one call at the end, so a run that fails has changed nothing. -/

namespace WrenGlue

open WrenGlue.Bindings (BindingFile Options)
open WrenGlue.Header (ClassDecl)

variable {σ : Type}

/-- The end of a call that changes the state: one that fails leaves it as it was. -/
def settle (s : σ) : Except FileError σ → Except FileError Unit × σ
  | .error cause => (.error cause, s)
  | .ok after => (.ok (), after)

/-- What a host does in a state: what it reads at a path, and the state after a text was
delivered. -/
structure Host.Acts (host : Host (StateM σ)) (read : σ → String → Except FileError String)
    (deliver : σ → Destination → String → Except FileError σ) : Prop where
  read : ∀ path s, (host.read path).run s = (read s path, s)
  write : ∀ path text s, (host.write path text).run s = settle s (deliver s (.file path) text)
  print : ∀ text s, (host.print text).run s = settle s (deliver s .stdout text)

/-- The sources that are read at paths. -/
def ReadAs (read : String → Except FileError String) : List String → List Source → Prop :=
  List.Forall₂ fun path source => source.path = path ∧ read path = .ok source.text

/-- Why a job fails where `read` and `deliver` tell what happens: the first input that cannot be
read, or else the error of the generator, or else that of the output. -/
inductive Job.Failure (job : Job) (read : String → Except FileError String)
    (deliver : Destination → String → Except FileError σ) : GenerateError → Prop
  | unreadable {before after : List String} {path : String} {sources : List Source}
      {cause : FileError} :
      job.inputs = before ++ path :: after → ReadAs read before sources →
      read path = .error cause → job.Failure read deliver (.file path cause)
  | ungenerated {sources : List Source} {e : GenerateError} :
      ReadAs read job.inputs sources → generate job.options sources = .error e →
      job.Failure read deliver e
  | undelivered {sources : List Source} {text : String} {cause : FileError} :
      ReadAs read job.inputs sources → generate job.options sources = .ok text →
      deliver job.output text = .error cause →
      job.Failure read deliver (.file job.output.shown cause)

/-- What a job that succeeds delivers, and what it reports. -/
structure Job.Delivers (job : Job) (read : String → Except FileError String)
    (sources : List Source) (classes : List ClassDecl) (text : String) (summary : Summary) :
    Prop where
  readAs : ReadAs read job.inputs sources
  collected : collectClasses sources = .ok classes
  generated : generate job.options sources = .ok text
  summary_eq : summary = {
    files := job.inputs.length
    classes := classes.length
    methods := (classes.flatMap (·.methods)).length
    bytes := text.toUTF8.size }

/-! ### Reading -/

theorem readAs_or_exists (read : String → Except FileError String) (paths : List String) :
    (∃ sources, ReadAs read paths sources) ∨ ∃ before path after sources cause,
      paths = before ++ path :: after ∧ ReadAs read before sources ∧ read path = .error cause := by
  induction paths with
  | nil => exact .inl ⟨[], .nil⟩
  | cons path rest ih =>
    cases hread : read path with
    | error cause => exact .inr ⟨[], path, rest, [], cause, rfl, .nil, hread⟩
    | ok text =>
      rcases ih with ⟨sources, h⟩ | ⟨before, path', after, sources, cause, rfl, h, hc⟩
      · exact .inl ⟨⟨path, text⟩ :: sources, .cons ⟨rfl, hread⟩ h⟩
      · exact .inr ⟨path :: before, path', after, ⟨path, text⟩ :: sources, cause, rfl,
          .cons ⟨rfl, hread⟩ h, hc⟩

theorem run_bind_eq {α β : Type} {x : StateM σ α} {f : α → StateM σ β} {s s' : σ} {a : α}
    (h : x.run s = (a, s')) : (x >>= f).run s = (f a).run s' := by
  rw [StateT.run_bind, h]
  rfl

namespace Host.Acts

variable {host : Host (StateM σ)} {read : σ → String → Except FileError String}
  {deliver : σ → Destination → String → Except FileError σ} {s : σ}

theorem run_readAll_cons (h : host.Acts read deliver) {path text : String}
    (hread : read s path = .ok text) {rest : List String}
    {result : Except GenerateError (List Source)}
    (hrest : (host.readAll rest).run s = (result, s)) :
    (host.readAll (path :: rest)).run s = (result.map (⟨path, text⟩ :: ·), s) := by
  rw [Host.readAll, run_bind_eq (h.read path s), hread]
  simp only
  rw [run_bind_eq hrest]
  rfl

theorem run_readAll (h : host.Acts read deliver) {paths : List String} {sources : List Source}
    (hread : ReadAs (read s) paths sources) :
    (host.readAll paths).run s = (.ok sources, s) := by
  induction hread with
  | nil => rfl
  | @cons path source _ _ hsource _ ih =>
    obtain ⟨rfl, htext⟩ := hsource
    rw [h.run_readAll_cons htext ih]
    rfl

theorem run_readAll_error (h : host.Acts read deliver) {before : List String}
    {sources : List Source} (hread : ReadAs (read s) before sources) {path : String}
    {cause : FileError} (hpath : read s path = .error cause) (after : List String) :
    (host.readAll (before ++ path :: after)).run s = (.error (.file path cause), s) := by
  induction hread with
  | nil =>
    rw [List.nil_append, Host.readAll, run_bind_eq (h.read path s), hpath]
    rfl
  | cons hsource _ ih =>
    rw [List.cons_append, h.run_readAll_cons hsource.2 ih]
    rfl

/-! ### Writing -/

theorem run_deliver (h : host.Acts read deliver) (output : Destination) (text : String) :
    (host.deliver output text).run s =
      match deliver s output text with
      | .error cause => (.error (.file output.shown cause), s)
      | .ok after => (.ok (), after) := by
  cases output with
  | stdout =>
    rw [Host.deliver, run_bind_eq (h.print text s)]
    cases deliver s .stdout text <;> rfl
  | file path =>
    rw [Host.deliver, run_bind_eq (h.write path text s)]
    cases deliver s (.file path) text <;> rfl

end Host.Acts

theorem generateWithSummary_of_error {options : Options} {sources : List Source}
    {e : GenerateError} (h : generate options sources = .error e) :
    generateWithSummary options sources = .error e := by
  rw [generate] at h
  cases hs : generateWithSummary options sources with
  | error e' =>
    rw [hs] at h
    exact congrArg Except.error (Except.error.inj h)
  | ok result =>
    rw [hs] at h
    cases h

theorem generateWithSummary_of_ok {options : Options} {sources : List Source} {text : String}
    (h : generate options sources = .ok text) : ∃ classes, collectClasses sources = .ok classes ∧
      generateWithSummary options sources = .ok (text, {
        files := sources.length
        classes := classes.length
        methods := (classes.flatMap (·.methods)).length
        bytes := text.toUTF8.size }) := by
  obtain ⟨classes, u, hclasses, hu, rfl⟩ := generate_eq_ok_iff.1 h
  refine ⟨classes, hclasses, ?_⟩
  rw [generateWithSummary, hclasses]
  simp only [bind, Except.bind, hu, Except.mapError]
  rfl

/-- A job fails without a trace, or it ends with its one delivery. -/
theorem Host.Acts.run_job {host : Host (StateM σ)} {read : σ → String → Except FileError String}
    {deliver : σ → Destination → String → Except FileError σ} (h : host.Acts read deliver)
    (job : Job) (s : σ) :
    (∃ e, job.Failure (read s) (deliver s) e ∧ (job.run host).run s = (.error e, s)) ∨
      ∃ sources classes text summary after, job.Delivers (read s) sources classes text summary ∧
        deliver s job.output text = .ok after ∧ (job.run host).run s = (.ok summary, after) := by
  rcases readAs_or_exists (read s) job.inputs with
    ⟨sources, hread⟩ | ⟨before, path, after, sources, cause, hinputs, hread, hpath⟩
  · -- Up to the delivery the state is `s`, whichever way the job ends.
    have hsources := h.run_readAll hread
    cases hgenerate : generate job.options sources with
    | error e =>
      refine .inl ⟨e, .ungenerated hread hgenerate, ?_⟩
      rw [Job.run, run_bind_eq hsources]
      simp only [generateWithSummary_of_error hgenerate]
      rfl
    | ok text =>
      obtain ⟨classes, hclasses, hsummary⟩ := generateWithSummary_of_ok hgenerate
      have hdelivered := h.run_deliver (s := s) job.output text
      cases hdeliver : deliver s job.output text with
      | error cause =>
        refine .inl ⟨_, .undelivered hread hgenerate hdeliver, ?_⟩
        rw [hdeliver] at hdelivered
        rw [Job.run, run_bind_eq hsources]
        simp only [hsummary]
        rw [run_bind_eq hdelivered]
        rfl
      | ok after =>
        refine .inr ⟨sources, classes, text, _, after, ⟨hread, hclasses, hgenerate, rfl⟩,
          hdeliver, ?_⟩
        rw [hdeliver] at hdelivered
        rw [Job.run, run_bind_eq hsources]
        simp only [hsummary]
        rw [run_bind_eq hdelivered, hread.length_eq]
        rfl
  · refine .inl ⟨_, .unreadable hinputs hread hpath, ?_⟩
    rw [Job.run, hinputs, run_bind_eq (h.run_readAll_error hread hpath after)]
    rfl

/-! ### Files by their paths -/

/-- Files by their paths, and what was printed. -/
structure Disk where
  /-- The content of the file at a path, or why there is none to read. -/
  content : String → Except FileError ByteArray
  /-- Why a text cannot be delivered, if it cannot. -/
  refusal? : Destination → String → Option FileError := fun _ _ => none
  printed : String := ""

namespace Disk

/-- The text of the file at a path. -/
def read (disk : Disk) (path : String) : Except FileError String := do
  match String.fromUTF8? (← disk.content path) with
  | some text => return text
  | none => throw .notText

/-- The disk with a text printed, or as the whole content of the file at a path. -/
def put (disk : Disk) (output : Destination) (text : String) : Disk :=
  match output with
  | .stdout => { disk with printed := disk.printed ++ text }
  | .file path => { disk with content := Function.update disk.content path (.ok text.toUTF8) }

def deliver (disk : Disk) (output : Destination) (text : String) : Except FileError Disk :=
  match disk.refusal? output text with
  | some cause => .error cause
  | none => .ok (disk.put output text)

/-- The host that works on a disk. -/
def host : Host (StateM Disk) where
  read path := fun disk => (disk.read path, disk)
  write path text := fun disk => settle disk (disk.deliver (.file path) text)
  print text := fun disk => settle disk (disk.deliver .stdout text)

theorem acts_host : host.Acts read deliver where
  read _ _ := rfl
  write _ _ _ := rfl
  print _ _ := rfl

/-- `after` is `disk` with `text` at the output and nothing else changed. -/
structure Changed (disk : Disk) (output : Destination) (text : String) (after : Disk) : Prop where
  file : ∀ path, output = .file path → after.content path = .ok text.toUTF8
  others : ∀ path, output ≠ .file path → after.content path = disk.content path
  printed : after.printed = disk.printed ++ if output = .stdout then text else ""

theorem changed_put (disk : Disk) (output : Destination) (text : String) :
    disk.Changed output text (disk.put output text) := by
  cases output with
  | stdout => exact ⟨fun _ h => (nomatch h), fun _ _ => rfl, rfl⟩
  | file path =>
    refine ⟨fun other h => ?_, fun other h => ?_, by simp [put]⟩
    · obtain rfl := Destination.file.inj h
      exact Function.update_self path _ _
    · refine Function.update_of_ne (fun he => h ?_) _ _
      rw [he]

end Disk

/-- A job that fails has changed no file and printed nothing, and it fails for the first input that
cannot be read, else in the generator, else at the output. A job that succeeds has changed the
output alone, which holds what was generated from the inputs as they were before, even where the
output is one of them. -/
theorem Job.run_outcome (job : Job) (disk : Disk) :
    (∀ e, ((job.run Disk.host).run disk).1 = .error e →
      ((job.run Disk.host).run disk).2 = disk ∧ job.Failure disk.read disk.deliver e) ∧
    ∀ summary, ((job.run Disk.host).run disk).1 = .ok summary →
      ∃ sources classes text, job.Delivers disk.read sources classes text summary ∧
        disk.Changed job.output text ((job.run Disk.host).run disk).2 := by
  rcases Disk.acts_host.run_job job disk with
    ⟨e, hfailure, hrun⟩ | ⟨sources, classes, text, summary, after, hd, hdeliver, hrun⟩
  · rw [hrun]
    refine ⟨fun e' he => ?_, fun _ h => nomatch h⟩
    obtain rfl := Except.error.inj he
    exact ⟨rfl, hfailure⟩
  · rw [hrun]
    refine ⟨fun _ h => (nomatch h), fun summary' h => ?_⟩
    obtain rfl := Except.ok.inj h
    rw [Disk.deliver] at hdeliver
    split at hdeliver
    · cases hdeliver
    · obtain rfl := Except.ok.inj hdeliver
      exact ⟨sources, classes, text, hd, disk.changed_put job.output text⟩

end WrenGlue
