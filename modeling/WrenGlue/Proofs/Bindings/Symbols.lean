import WrenGlue.Proofs.Bindings.Faults
import WrenGlue.Proofs.Text.Name
import WrenGlue.Generate

/-! Which methods share a trampoline. Its name joins the class, the method and the number of
arguments by underscores, and names may hold underscores themselves: methods of two classes share a
trampoline if the name of one class goes on, behind an underscore, as the other's method begins. -/

namespace WrenGlue.Text

/-- Two ways to cut a text at an underscore: the same one, or one of them cuts later. -/
theorem append_underscore_eq_iff {a b c d : String} :
    a ++ "_" ++ b = c ++ "_" ++ d ↔ (a = c ∧ b = d) ∨
      (∃ word, c = a ++ "_" ++ word ∧ b = word ++ "_" ++ d) ∨
      ∃ word, a = c ++ "_" ++ word ∧ d = word ++ "_" ++ b := by
  constructor
  · intro h
    have hchars : a.toList ++ '_' :: b.toList = c.toList ++ '_' :: d.toList := by
      simpa [← String.toList_inj] using h
    rcases List.append_eq_append_iff.1 hchars with ⟨between, hc, hb⟩ | ⟨between, ha, hd⟩
    · rcases List.cons_eq_append_iff.1 hb with ⟨rfl, hd⟩ | ⟨word, rfl, hrest⟩
      · refine .inl ⟨?_, ?_⟩
        · rw [← String.toList_inj, hc, List.append_nil]
        · rw [← String.toList_inj, (List.cons_eq_cons.1 hd).2]
      · exact .inr (.inl ⟨String.ofList word, by simp [← String.toList_inj, hc],
          by simp [← String.toList_inj, hrest]⟩)
    · rcases List.cons_eq_append_iff.1 hd with ⟨rfl, hb⟩ | ⟨word, rfl, hrest⟩
      · refine .inl ⟨?_, ?_⟩
        · rw [← String.toList_inj, ha, List.append_nil]
        · rw [← String.toList_inj, (List.cons_eq_cons.1 hb).2]
      · exact .inr (.inr ⟨String.ofList word, by simp [← String.toList_inj, ha],
          by simp [← String.toList_inj, hrest]⟩)
  · rintro (⟨rfl, rfl⟩ | ⟨word, rfl, rfl⟩ | ⟨word, rfl, rfl⟩) <;> simp [String.append_assoc]

theorem ne_append_underscore (a word : String) : a ≠ a ++ "_" ++ word := by
  intro h
  have hlength := congrArg String.length h
  rw [String.length_append, String.length_append, show ("_" : String).length = 1 from rfl] at hlength
  omega

end WrenGlue.Text

namespace WrenGlue

open WrenGlue.Bindings WrenGlue.Header WrenGlue.Text

namespace Member

/-- With the class in front, the names read alike: they are the same, or one class name goes on
behind an underscore where the other method name begins. -/
def ReadsLike (m m' : Member) : Prop :=
  (m.owner.name = m'.owner.name ∧ m.method.name = m'.method.name) ∨
  (∃ word, m'.owner.name = m.owner.name ++ "_" ++ word ∧
    m.method.name = word ++ "_" ++ m'.method.name) ∨
  ∃ word, m.owner.name = m'.owner.name ++ "_" ++ word ∧
    m'.method.name = word ++ "_" ++ m.method.name

theorem ReadsLike.method_eq {m m' : Member} (h : m.ReadsLike m')
    (hclass : m.owner.name = m'.owner.name) : m.method.name = m'.method.name := by
  rcases h with ⟨-, hmethod⟩ | ⟨word, hlonger, -⟩ | ⟨word, hlonger, -⟩
  · exact hmethod
  · exact absurd (hclass.trans hlonger) (ne_append_underscore _ word)
  · exact absurd (hclass.symm.trans hlonger) (ne_append_underscore _ word)

theorem trampolineName_eq_iff {m m' : Member} {arity arity' : Nat} :
    m.trampolineName arity = m'.trampolineName arity' ↔ arity = arity' ∧ m.ReadsLike m' := by
  rw [ReadsLike, ← append_underscore_eq_iff]
  constructor
  · intro h
    have hunder : ∀ front : String, (front ++ "_").toList.getLast?.any Char.isDigit = false := by
      intro front
      rw [@getLast?_toList_append front "_" '_' rfl]
      decide
    obtain ⟨hfront, harity⟩ := append_toString_inj (hunder _) (hunder _) h
    refine ⟨harity, ?_⟩
    rw [← String.toList_inj, String.toList_append, String.toList_append (t := "_")] at hfront
    have hnames := List.append_cancel_right hfront
    simpa [← String.toList_inj] using hnames
  · rintro ⟨rfl, h⟩
    have hfront : ∀ m : Member, m.trampolineName arity =
        "binding_" ++ (m.owner.name ++ "_" ++ m.method.name) ++ "_" ++ toString arity := by
      simp [trampolineName, String.append_assoc]
    rw [hfront, hfront, h]

/-- A symbol tells the number of arguments and how the names read, and nothing more. -/
theorem symbol_eq_iff {m m' : Member} {arity arity' : Nat} (h : m.arity = .ok arity)
    (h' : m'.arity = .ok arity') :
    m.symbol = m'.symbol ↔ arity = arity' ∧ m.ReadsLike m' := by
  rw [symbol_eq_ok.2 ⟨arity, h, rfl⟩, symbol_eq_ok.2 ⟨arity', h', rfl⟩, Except.ok.injEq,
    trampolineName_eq_iff]

/-- The only check for a shared trampoline is the one against those that are recorded. -/
theorem duplicateSymbol_mem_faults {m : Member} {recorded : List String}
    {className method symbol : String}
    (h : .method className method (.duplicateSymbol symbol) ∈ m.faults recorded) :
    m.owner.name = className ∧ m.method.name = method ∧ m.symbol = .ok symbol ∧
      symbol ∈ recorded := by
  obtain ⟨fault, hfault, he⟩ := List.mem_map.1 h
  obtain ⟨rfl, rfl, rfl⟩ := BindError.method.inj he
  refine ⟨rfl, rfl, ?_⟩
  have harity : .duplicateSymbol symbol ∉ m.arityFaults := by
    rw [arityFaults]
    split <;> simp
  have hform : .duplicateSymbol symbol ∉ m.formFaults := by
    rw [formFaults]
    split <;> simp
  have hassigned : .duplicateSymbol symbol ∉ m.assignedFaults := by
    rw [assignedFaults]
    split <;> simp
  have hargs : .duplicateSymbol symbol ∉ m.method.args.flatMap argumentFaults := by
    intro hmem
    obtain ⟨a, -, ha⟩ := List.mem_flatMap.1 hmem
    rw [argumentFaults] at ha
    split at ha <;> simp at ha
  have hresult : .duplicateSymbol symbol ∉ m.resultFaults := by
    rw [resultFaults]
    split <;> simp
  simp only [bindingFaults, List.mem_append, harity, hform, hassigned, hargs, hresult, or_false,
    false_or] at hfault
  rw [symbolFaults] at hfault
  cases hs : m.symbol with
  | error e => simp [hs] at hfault
  | ok own =>
    by_cases hown : own ∈ recorded
    · simp only [hs, if_pos hown, List.mem_singleton, MethodFault.duplicateSymbol.injEq] at hfault
      subst hfault
      exact ⟨rfl, hown⟩
    · simp [hs, hown] at hfault

end Member

/-- The method that is reported for its trampoline, and what stands before it. -/
theorem duplicateSymbol_mem_memberFaults {recorded : List String} {ms : List Member}
    {className method symbol : String}
    (h : .method className method (.duplicateSymbol symbol) ∈ memberFaults recorded ms) :
    ∃ before m after, ms = before ++ m :: after ∧ m.owner.name = className ∧
      m.method.name = method ∧ m.symbol = .ok symbol ∧ symbol ∈ recorded ++ symbols before := by
  induction ms generalizing recorded with
  | nil => cases h
  | cons first rest ih =>
    rw [memberFaults, List.mem_append] at h
    rcases h with h | h
    · obtain ⟨hclass, hmethod, hsymbol, hrecorded⟩ := Member.duplicateSymbol_mem_faults h
      exact ⟨[], first, rest, rfl, hclass, hmethod, hsymbol, List.mem_append_left _ hrecorded⟩
    · obtain ⟨before, m, after, rfl, hclass, hmethod, hsymbol, hrecorded⟩ := ih h
      refine ⟨first :: before, m, after, rfl, hclass, hmethod, hsymbol, ?_⟩
      rwa [symbols_cons, ← List.append_assoc]

theorem duplicateSymbol_mem_classFaults {names recorded : List String} {classes : List ClassDecl}
    {className method symbol : String}
    (h : .method className method (.duplicateSymbol symbol) ∈ classFaults names recorded classes) :
    ∃ before m after, classes.flatMap (·.members) = before ++ m :: after ∧
      m.owner.name = className ∧ m.method.name = method ∧ m.symbol = .ok symbol ∧
      symbol ∈ recorded ++ symbols before := by
  induction classes generalizing names recorded with
  | nil => cases h
  | cons c rest ih =>
    rw [classFaults, List.mem_append, List.mem_append] at h
    rcases h with (h | h) | h
    · split at h <;> simp at h
    · obtain ⟨before, m, after, hms, hm⟩ := duplicateSymbol_mem_memberFaults h
      exact ⟨before, m, after ++ rest.flatMap (·.members), by simp [hms], hm⟩
    · obtain ⟨before, m, after, hms, hclass, hmethod, hsymbol, hrecorded⟩ := ih h
      refine ⟨c.members ++ before, m, after, by simp [hms], hclass, hmethod, hsymbol, ?_⟩
      rwa [symbols_append, ← List.append_assoc]

theorem symbol_toOption_eq_some {m : Member} {symbol : String} :
    m.symbol.toOption = some symbol ↔ m.symbol = .ok symbol := by
  cases m.symbol <;> simp [Except.toOption]

/-- Two methods that would share a trampoline: they take as many arguments, and their names read
alike. -/
def Member.Clashes (m m' : Member) : Prop :=
  ∃ arity, m.arity = .ok arity ∧ m'.arity = .ok arity ∧ m.ReadsLike m'

theorem Member.clashes_iff {m m' : Member} :
    m.Clashes m' ↔ ∃ symbol, m.symbol = .ok symbol ∧ m'.symbol = .ok symbol := by
  constructor
  · rintro ⟨arity, h, h', hnames⟩
    exact ⟨_, symbol_eq_ok.2 ⟨arity, h, rfl⟩,
      symbol_eq_ok.2 ⟨arity, h', trampolineName_eq_iff.2 ⟨rfl, hnames⟩⟩⟩
  · rintro ⟨symbol, h, h'⟩
    obtain ⟨arity, harity, rfl⟩ := symbol_eq_ok.1 h
    obtain ⟨arity', harity', hname⟩ := symbol_eq_ok.1 h'
    obtain ⟨rfl, hnames⟩ := trampolineName_eq_iff.1 hname
    exact ⟨arity, harity, harity', hnames⟩

theorem nodup_symbols_iff {ms : List Member} :
    (symbols ms).Nodup ↔ ms.Pairwise fun m m' => ¬ m.Clashes m' := by
  have hpair : ∀ m m' : Member, (∀ s, m.symbol.toOption = some s →
      ∀ s', m'.symbol.toOption = some s' → s ≠ s') ↔ ¬ m.Clashes m' := by
    intro m m'
    simp only [symbol_toOption_eq_some, Member.clashes_iff]
    exact ⟨fun h ⟨s, hs, hs'⟩ => h s hs s hs' rfl, fun h s hs s' hs' he => h ⟨s, hs, he ▸ hs'⟩⟩
  rw [symbols, List.Nodup, List.pairwise_filterMap]
  simp only [hpair]

theorem mem_of_mem_flatMap_members {classes : List ClassDecl} {m : Member}
    (h : m ∈ classes.flatMap (·.members)) : m.owner ∈ classes := by
  obtain ⟨c, hc, hm⟩ := List.mem_flatMap.1 h
  obtain ⟨d, -, rfl⟩ := List.mem_map.1 hm
  exact hc

/-- A trampoline is rejected as a duplicate only where an earlier method clashes with the one that
is reported. Within a class these are overloads: methods with one name that take as many arguments.
Across classes, one class name goes on where the other method name begins. -/
theorem Bindings.BindingFile.duplicateSymbol_clash :
    (∀ (m m' : Member) (arity arity' : Nat), m.arity = .ok arity → m'.arity = .ok arity' →
      (m.symbol = m'.symbol ↔ arity = arity' ∧ m.ReadsLike m')) ∧
    ∀ (options : Options) (sources : List String) (classes : List ClassDecl),
      (classes.map (·.name)).Nodup →
      (∀ className method symbol, ofClasses options sources classes =
          .error (.method className method (.duplicateSymbol symbol)) →
        ∃ first second, [first, second].Sublist (classes.flatMap (·.members)) ∧
          second.owner.name = className ∧ second.method.name = method ∧
          first.symbol = .ok symbol ∧ second.symbol = .ok symbol ∧ first.Clashes second ∧
          (first.owner.name = className → first.owner = second.owner ∧
            first.method.name = method)) ∧
      ((∀ m ∈ classes.flatMap (·.members), m.Bindable) →
        ((∃ u, ofClasses options sources classes = .ok u) ↔
          (classes.flatMap (·.members)).Pairwise fun m m' => ¬ m.Clashes m')) := by
  refine ⟨fun m m' _ _ => Member.symbol_eq_iff, fun options sources classes hnames => ⟨?_, ?_⟩⟩
  · intro className method symbol h
    have hfault := List.mem_of_mem_head?
      ((reports_ofClasses options sources classes).eq_error_iff.1 h)
    obtain ⟨before, second, after, hms, rfl, rfl, hsecond, hrecorded⟩ :=
      duplicateSymbol_mem_classFaults hfault
    obtain ⟨first, hfirst, hs⟩ := List.mem_filterMap.1 hrecorded
    have hfirst' := symbol_toOption_eq_some.1 hs
    have hclash := Member.clashes_iff.2 ⟨symbol, hfirst', hsecond⟩
    have hsublist : [first, second].Sublist (classes.flatMap (·.members)) := by
      rw [hms]
      exact (List.singleton_sublist.2 hfirst).append
        ((List.nil_sublist after).cons_cons second)
    refine ⟨first, second, hsublist, rfl, rfl, hfirst', hsecond, hclash, fun hclass => ⟨?_, ?_⟩⟩
    · have hmem : ∀ m ∈ [first, second], m.owner ∈ classes := fun m hm =>
        mem_of_mem_flatMap_members (hsublist.subset hm)
      exact List.inj_on_of_nodup_map hnames (hmem first (by simp)) (hmem second (by simp)) hclass
    · obtain ⟨-, -, -, hread⟩ := hclash
      exact hread.method_eq hclass
  · intro hbindable
    rw [(reports_ofClasses options sources classes).exists_eq_ok_iff, faults,
      classFaults_eq_nil_iff, nodup_symbols_iff]
    simp only [hnames, List.disjoint_nil_right, true_and, and_true]
    exact ⟨fun h => h.2, fun h => ⟨hbindable, h⟩⟩

/-- Two classes with one method each. The name of the second class goes on where the method of the
first begins. -/
def alikeClasses : List ClassDecl :=
  [{ name := "ObjA", line := 1, methods := [{ name := "B_C", returnType := "void", line := 2 }] },
    { name := "ObjA_B", line := 3, methods := [{ name := "C", returnType := "void", line := 4 }] }]

/-- A clash of two classes. -/
theorem Bindings.BindingFile.duplicateSymbol_clash_across :
    ((alikeClasses.map (·.name)).Nodup ∧ BindingFile.ofClasses {} [] alikeClasses =
      .error (.method "ObjA_B" "C" (.duplicateSymbol "binding_ObjA_B_C_0"))) ∧
    ∃ first second, [first, second].Sublist (alikeClasses.flatMap (·.members)) ∧
      second.owner.name = "ObjA_B" ∧ second.method.name = "C" ∧
      first.symbol = .ok "binding_ObjA_B_C_0" ∧ second.symbol = .ok "binding_ObjA_B_C_0" ∧
      first.Clashes second ∧ (first.owner.name = "ObjA_B" → first.owner = second.owner ∧
        first.method.name = "C") := by
  have hnames : (alikeClasses.map (·.name)).Nodup := by decide
  have herror : BindingFile.ofClasses {} [] alikeClasses =
      .error (.method "ObjA_B" "C" (.duplicateSymbol "binding_ObjA_B_C_0")) := by
    decide +kernel
  exact ⟨⟨hnames, herror⟩,
    (BindingFile.duplicateSymbol_clash.2 {} [] alikeClasses hnames).1 _ _ _ herror⟩

/-- A header is rejected for a trampoline that two methods share, and no class of it has two methods
with one name. -/
theorem generate_rejects_without_overload :
    collectClasses [⟨"a.h", "class ObjA \x7b\nWREN_METHOD() void B_C();\n" ++
      "class ObjA_B \x7b\nWREN_METHOD() void C();\n"⟩] = .ok alikeClasses ∧
    (alikeClasses.map (·.name)).Nodup ∧ (∀ c ∈ alikeClasses, (c.methods.map (·.name)).Nodup) ∧
    BindingFile.ofClasses {} ["a.h"] alikeClasses =
      .error (.method "ObjA_B" "C" (.duplicateSymbol "binding_ObjA_B_C_0")) := by
  decide +kernel

end WrenGlue
