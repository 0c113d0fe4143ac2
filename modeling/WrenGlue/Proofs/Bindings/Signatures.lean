import WrenGlue.Proofs.Bindings.BindRun
import WrenGlue.Proofs.Header.Scanned
import WrenGlue.Proofs.Wren.CallForm

/-! When one binding hides another: the runtime keeps the functions of a class by signature, so two
methods that share one cannot both be called. Only the names of trampolines are checked for
duplicates; which methods share a signature is told by their forms, kinds and numbers of
arguments. -/

namespace WrenGlue

open WrenGlue.Bindings WrenGlue.Text
open WrenGlue.Header (ClassDecl)
open WrenGlue.Wren (CallForm)

namespace Member

/-- The most values that the signatures of the method have room for behind the arguments. -/
def extraMax (m : Member) : Nat := if m.method.isVariadic then maxDispatchArity else 0

/-- The signatures under which the method is registered. -/
def signatures (m : Member) : List String :=
  match m.callShape with
  | .ok (form, arity) => (List.range (m.extraMax + 1)).map fun extra =>
      form.render m.method.kind (arity + extra)
  | .error _ => []

/-- The methods are called in the same form, and either both without showing the number of
arguments, or with numbers of arguments that meet. -/
def Overlaps (m m' : Member) : Prop :=
  ∃ form arity arity', m.callShape = .ok (form, arity) ∧ m'.callShape = .ok (form, arity') ∧
    (form.ShowsCount m.method.kind ↔ form.ShowsCount m'.method.kind) ∧
    (form.ShowsCount m.method.kind →
      arity ≤ arity' + m'.extraMax ∧ arity' ≤ arity + m.extraMax)

instance (m m' : Member) : Decidable (m.Overlaps m') :=
  match h : m.callShape, h' : m'.callShape with
  | .ok (form, arity), .ok (form', arity') =>
    decidable_of_iff (form = form' ∧
        (form.ShowsCount m.method.kind ↔ form.ShowsCount m'.method.kind) ∧
        (form.ShowsCount m.method.kind →
          arity ≤ arity' + m'.extraMax ∧ arity' ≤ arity + m.extraMax)) <| by
      simp [Overlaps, h, h', eq_comm]
  | .error _, _ => isFalse fun ⟨_, _, _, hok, _⟩ => by simp [h] at hok
  | .ok _, .error _ => isFalse fun ⟨_, _, _, _, hok, _⟩ => by simp [h'] at hok

theorem mem_signatures {m : Member} {signature : String} :
    signature ∈ m.signatures ↔ ∃ form arity extra, m.callShape = .ok (form, arity) ∧
      extra ≤ m.extraMax ∧ form.render m.method.kind (arity + extra) = signature := by
  cases hs : m.callShape with
  | error e => simp [signatures, hs]
  | ok shape =>
    obtain ⟨form, arity⟩ := shape
    simp only [signatures, hs, List.mem_map, List.mem_range, Nat.lt_succ_iff, Except.ok.injEq,
      Prod.mk.injEq]
    constructor
    · rintro ⟨extra, hle, rfl⟩
      exact ⟨form, arity, extra, ⟨rfl, rfl⟩, hle, rfl⟩
    · rintro ⟨_, _, extra, ⟨rfl, rfl⟩, hle, rfl⟩
      exact ⟨extra, hle, rfl⟩

/-- A variadic method is no getter. -/
theorem extraMax_eq_zero_of_not_showsCount {m : Member} {form : CallForm}
    (h : ¬ form.ShowsCount m.method.kind) : m.extraMax = 0 := by
  have hk : m.method.kind = .getter := by
    cases form with
    | subscriptGet | subscriptSet => exact absurd trivial h
    | operator op | named name => exact not_ne_iff.1 h
  simp [extraMax, Header.MethodDecl.isVariadic, hk]

/-- A method is called in a form whose signatures can be read back. -/
theorem isReadable_of_callShape {m : Member} (hm : m.HasWordNames) {form : CallForm} {arity : Nat}
    (h : m.callShape = .ok (form, arity)) : form.IsReadable := by
  obtain ⟨hform, -, -⟩ := callShape_eq_ok.1 h
  rw [callForm] at hform
  split at hform
  · next form' hnative =>
    cases hform
    exact CallForm.isReadable_ofNative hm.method hnative
  · cases hform

/-- A method is called with numbers of arguments that its form can take. -/
theorem admits_of_callShape {m : Member} {form : CallForm} {arity : Nat}
    (h : m.callShape = .ok (form, arity)) (extra : Nat) : form.Admits (arity + extra) := by
  obtain ⟨-, -, hset⟩ := callShape_eq_ok.1 h
  cases form with
  | subscriptSet =>
    have hpos : arity ≠ 0 := fun hzero => hset ⟨rfl, hzero⟩
    show 0 < arity + extra
    omega
  | subscriptGet | operator op | named name => trivial

/-- Methods overlap exactly if they have a signature in common. -/
theorem overlaps_iff {m m' : Member} (hm : m.HasWordNames) (hm' : m'.HasWordNames) :
    m.Overlaps m' ↔ ∃ signature ∈ m.signatures, signature ∈ m'.signatures := by
  constructor
  · rintro ⟨form, arity, arity', h, h', hkind, hmeet⟩
    by_cases hshows : form.ShowsCount m.method.kind
    · obtain ⟨hle, hle'⟩ := hmeet hshows
      -- The larger of the two arities is reached by both.
      refine ⟨form.render m.method.kind (arity + (arity' - arity)), ?_, ?_⟩
      · exact mem_signatures.2 ⟨form, arity, arity' - arity, h, by omega, rfl⟩
      · refine mem_signatures.2 ⟨form, arity', arity - arity', h', by omega, ?_⟩
        exact CallForm.render_congr hkind.symm fun _ => by omega
    · refine ⟨form.render m.method.kind (arity + 0), ?_, ?_⟩
      · exact mem_signatures.2 ⟨form, arity, 0, h, Nat.zero_le _, rfl⟩
      · refine mem_signatures.2 ⟨form, arity', 0, h', Nat.zero_le _, ?_⟩
        exact CallForm.render_congr hkind.symm fun hs => absurd (hkind.2 hs) hshows
  · rintro ⟨signature, hs, hs'⟩
    obtain ⟨form, arity, extra, h, hle, rfl⟩ := mem_signatures.1 hs
    obtain ⟨form', arity', extra', h', hle', heq⟩ := mem_signatures.1 hs'
    obtain ⟨rfl, hkind, hcount⟩ := (CallForm.render_eq_render_iff
      (isReadable_of_callShape hm' h') (isReadable_of_callShape hm h)
      (admits_of_callShape h' extra') (admits_of_callShape h extra)).1 heq
    refine ⟨form', arity, arity', h, h', hkind.symm, fun hshows => ?_⟩
    have hsum := hcount (hkind.2 hshows)
    omega

/-- A signature tells which form of call it stands for, whether it is that of a getter, and the number
of arguments of any other call. So does the signature of a method with any number of values behind
its arguments. -/
theorem signature_determines_call :
    (∀ form form' : CallForm, form.IsReadable → form'.IsReadable → ∀ kind kind' n n',
      form.Admits n → form'.Admits n' → (form.render kind n = form'.render kind' n' ↔
        form = form' ∧ form.SameCall kind kind' n n')) ∧
    ∀ m m' : Member, m.HasWordNames → m'.HasWordNames → ∀ extra extra' signature,
      m.signatureWith extra = .ok signature → m'.signatureWith extra' = .ok signature →
        ∃ form arity arity', m.callShape = .ok (form, arity) ∧ m'.callShape = .ok (form, arity') ∧
          form.SameCall m.method.kind m'.method.kind (arity + extra) (arity' + extra') := by
  constructor
  · intro form form' hf hf' kind kind' n n' hn hn'
    rw [CallForm.render_eq_render_iff hf hf' hn hn']
    exact and_congr_right fun _ => CallForm.sameCall_iff.symm
  · intro m m' hm hm' extra extra' signature h h'
    obtain ⟨form, arity, hshape, rfl⟩ := signatureWith_eq_ok.1 h
    obtain ⟨form', arity', hshape', heq⟩ := signatureWith_eq_ok.1 h'
    obtain ⟨rfl, hsame⟩ := (CallForm.render_eq_render_iff
      (isReadable_of_callShape hm hshape) (isReadable_of_callShape hm' hshape')
      (admits_of_callShape hshape extra) (admits_of_callShape hshape' extra')).1 heq
    exact ⟨form, arity, arity', hshape, hshape', CallForm.sameCall_iff.2 hsame⟩

/-- A subscript with the given arguments. -/
def subscriptOf (kind : Header.MethodKind) (args : List Header.Argument) : Member :=
  ⟨{ name := "ObjA" }, { name := "OperatorSubscript", returnType := "int", kind, args }⟩

/-- A getter is told from a call without arguments. A subscript with two indices shares its signature
with a variadic one that passes a value behind its index: both pass two arguments. -/
theorem signature_determines_call_subscript :
    ("count" : String) ≠ "count()" ∧ ∃ form arity arity',
      (subscriptOf .variadic [⟨"int", "i", 0, none⟩]).callShape = .ok (form, arity) ∧
      (subscriptOf .plain [⟨"int", "i", 0, none⟩, ⟨"int", "j", 1, none⟩]).callShape =
        .ok (form, arity') ∧
      form.SameCall .variadic .plain (arity + 1) (arity' + 0) := by
  obtain ⟨hforms, hmethods⟩ := signature_determines_call
  have hcount : (CallForm.named "count").IsReadable := by
    show ∀ c ∈ "count".toList, c ∉ Wren.reserved
    decide
  constructor
  · intro h
    have hsame := (hforms (.named "count") (.named "count") hcount hcount .getter .plain 0 0 trivial
      trivial).1 h
    exact absurd (hsame.2.1.1 rfl) (by decide)
  · exact hmethods (subscriptOf .variadic [⟨"int", "i", 0, none⟩])
      (subscriptOf .plain [⟨"int", "i", 0, none⟩, ⟨"int", "j", 1, none⟩])
      ⟨by decide, by decide⟩ ⟨by decide, by decide⟩ 1 0 "[_,_]" (by decide +kernel)
      (by decide +kernel)

theorem nodup_signatures (m : Member) : m.signatures.Nodup := by
  cases hs : m.callShape with
  | error e => simp [signatures, hs]
  | ok shape =>
    obtain ⟨form, arity⟩ := shape
    simp only [signatures, hs]
    by_cases hshows : form.ShowsCount m.method.kind
    · refine List.nodup_range.map fun extra extra' heq => ?_
      have hsum := CallForm.render_injective hshows (admits_of_callShape hs extra)
        (admits_of_callShape hs extra') heq
      omega
    · simp [extraMax_eq_zero_of_not_showsCount hshows]

/-- A binding registers the signatures of its method. -/
theorem IsBinding.map_signature {m : Member} {options : Options} {form : CallForm} {arity : Nat}
    {b : MethodBinding} (h : m.IsBinding options form arity b) :
    b.registrations.map (·.signature) = m.signatures := by
  rw [h.registrations]
  by_cases hv : m.method.isVariadic = true
  · simp [signatures, extraMax, h.callShape, hv]
  · simp [signatures, extraMax, h.callShape, hv]

/-- All registrations of a binding are on the level of its method. -/
theorem IsBinding.signatures_eq {m : Member} {options : Options} {form : CallForm} {arity : Nat}
    {b : MethodBinding} (h : m.IsBinding options form arity b) (isMeta : Bool) :
    (b.registrations.filter (·.isStatic == isMeta)).map (·.signature) =
      if m.method.isStatic == isMeta then m.signatures else [] := by
  rw [filter_level h.isStatic_registrations]
  split
  · exact h.map_signature
  · rfl

end Member

namespace Bindings

theorem signatures_eq_flatMap {options : Options} {ms : List Member} {bs : List MethodBinding}
    (h : List.Forall₂ (fun m b => m.binding options = .ok b) ms bs) (isMeta : Bool) :
    ((bs.flatMap (·.registrations)).filter (·.isStatic == isMeta)).map (·.signature) =
      (ms.filter (·.method.isStatic == isMeta)).flatMap Member.signatures := by
  induction h with
  | nil => rfl
  | @cons m b ms bs hb _ ih =>
    obtain ⟨form, arity, hbinding⟩ := Member.exists_isBinding hb
    rw [List.flatMap_cons, List.filter_append, List.map_append, hbinding.signatures_eq, ih,
      List.filter_cons]
    split
    · rw [List.flatMap_cons]
    · rfl

/-- The signatures of methods are different exactly if no two of the methods overlap. -/
theorem nodup_signatures_iff {ms : List Member} (h : ∀ m ∈ ms, m.HasWordNames) :
    (ms.flatMap Member.signatures).Nodup ↔ ms.Pairwise fun m m' => ¬ m.Overlaps m' := by
  have hpair : ∀ m ∈ ms, ∀ m' ∈ ms,
      List.Disjoint m.signatures m'.signatures ↔ ¬ m.Overlaps m' := by
    intro m hm m' hm'
    rw [Member.overlaps_iff (h m hm) (h m' hm'), List.disjoint_left]
    simp
  rw [List.nodup_flatMap]
  constructor
  · rintro ⟨-, hdisjoint⟩
    exact hdisjoint.imp_of_mem fun hm hm' hd => (hpair _ hm _ hm').1 hd
  · intro hpairs
    refine ⟨fun m _ => m.nodup_signatures, ?_⟩
    exact hpairs.imp_of_mem fun hm hm' hno => (hpair _ hm _ hm').2 hno

/-- The register function of a class adds the functions of one level under different signatures
exactly if no two methods of that level overlap. -/
theorem BindingFile.IsFor.exists_runRegister {u : BindingFile} {classes : List ClassDecl}
    (h : u.IsFor classes) (hc : ∀ c ∈ classes, c.HasWordNames) {c : ClassDecl} (hmem : c ∈ classes)
    (isMeta : Bool) : ∃ added,
      runRegister u.code.lines isMeta (registerName c.name) =
        some { added, outcome := .returned } ∧
      ((added.map (·.signature)).Nodup ↔ (c.members.filter (·.method.isStatic == isMeta)).Pairwise
        fun m m' => ¬ m.Overlaps m') := by
  obtain ⟨b, hb, hbinds⟩ := exists_mem_of_forall₂ h.bindings.flip hmem
  have hrun := runRegister_eq h (h.isWordName_classes fun c hc' => (hc c hc').name) isMeta hb
  rw [hbinds.1] at hrun
  refine ⟨_, hrun, ?_⟩
  have hsignatures : ((b.registrations.filter (·.isStatic == isMeta)).map Registration.entry).map
      (·.signature) =
        (c.members.filter (·.method.isStatic == isMeta)).flatMap Member.signatures := by
    rw [List.map_map, ← signatures_eq_flatMap hbinds.2]
    rfl
  rw [hsignatures, nodup_signatures_iff fun m hm =>
    hasWordNames_of_mem_members (hc c hmem) (List.mem_of_mem_filter hm)]

end Bindings

theorem hasWordNames_of_collectClasses {sources : List Source} {classes : List ClassDecl}
    (h : collectClasses sources = .ok classes) : ∀ c ∈ classes, c.HasWordNames := by
  intro c hc
  obtain ⟨source, -, read, hread, hmem⟩ := exists_source_of_mem_collectClasses h hc
  obtain ⟨hname, hmethods⟩ := Header.isWordName_of_readClasses hread c hmem
  exact ⟨hname, hmethods⟩

theorem generate_eq_ok_iff {options : Options} {sources : List Source} {text : String} :
    generate options sources = .ok text ↔ ∃ classes u, collectClasses sources = .ok classes ∧
      BindingFile.ofClasses options (sources.map (·.path)) classes = .ok u ∧ u.text = text := by
  constructor
  · intro h
    obtain ⟨⟨text', summary⟩, hsummary, h⟩ := bind_eq_ok.1 h
    obtain ⟨classes, hclasses, hsummary⟩ := bind_eq_ok.1 hsummary
    obtain ⟨u, hu, hsummary⟩ := bind_eq_ok.1 hsummary
    cases h
    cases hsummary
    refine ⟨classes, u, hclasses, ?_, rfl⟩
    cases hfile : BindingFile.ofClasses options (sources.map (·.path)) classes with
    | error e => simp [hfile, Except.mapError] at hu
    | ok file => simpa [hfile, Except.mapError] using hu
  · rintro ⟨classes, u, hclasses, hu, rfl⟩
    simp [generate, generateWithSummary, hclasses, hu, Except.mapError, bind, Except.bind, pure,
      Except.pure]

end WrenGlue
