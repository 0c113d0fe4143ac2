import WrenGlue.Cpp.Code

/-! Code written call by call. An opened block moves what follows one level in until its closing
line, and an indented body stands one level in for itself. Calls write what their code says. -/

namespace WrenGlue.Cpp

/-- A call that writes to a page. -/
inductive WriterCall where
  | line (text : String)
  | blank
  | opening (text : String)
  | closing (text : String)
  /-- Makes the calls of `body` one level deeper, without braces. -/
  | indented (body : List WriterCall)

mutual

/-- The page behind one call. -/
def Page.call (p : Page) : WriterCall → Page
  | .line text => p.put (.line text)
  | .blank => { p with text := p.text ++ "\n" }
  | .opening text => (p.put (.line text)).put .indent
  | .closing text => (p.put .dedent).put (.line text)
  | .indented body => ((p.put .indent).calls body).put .dedent

/-- The page behind a sequence of calls. -/
def Page.calls (p : Page) : List WriterCall → Page
  | [] => p
  | c :: rest => (p.call c).calls rest

end

mutual

/-- What one call writes. -/
def WriterCall.code : WriterCall → Code
  | .line text => [.line text]
  | .blank => Code.blank
  | .opening text => Code.opening text
  | .closing text => Code.closing text
  | .indented body => Code.indented (WriterCall.codes body)

/-- What a sequence of calls writes. -/
def WriterCall.codes : List WriterCall → Code
  | [] => []
  | c :: rest => c.code ++ WriterCall.codes rest

end

theorem WriterCall.codes_append (a b : List WriterCall) : codes (a ++ b) = codes a ++ codes b := by
  induction a with
  | nil => rfl
  | cons c a ih => rw [List.cons_append, codes, codes, ih, List.append_assoc]

theorem WriterCall.codes_map_line (texts : List String) :
    codes (texts.map .line) = Code.ofLines texts := by
  induction texts with
  | nil => rfl
  | cons text texts ih =>
    rw [List.map_cons, codes, ih]
    rfl

mutual

theorem Page.call_eq_write (p : Page) (c : WriterCall) : p.call c = p.write c.code := by
  cases c with
  | line text | opening text | closing text => rfl
  | blank => simp [call, WriterCall.code, Code.blank, write, put, lineAt]
  | indented body =>
    have hinner := Page.calls_eq_write (p.put .indent) body
    rw [call, hinner, WriterCall.code, Code.indented, write_append]
    rfl

/-- Calls write their code. -/
theorem Page.calls_eq_write (p : Page) (cs : List WriterCall) :
    p.calls cs = p.write (WriterCall.codes cs) := by
  cases cs with
  | nil => rfl
  | cons c rest =>
    rw [calls, WriterCall.codes, write_append, Page.call_eq_write p c]
    exact Page.calls_eq_write _ rest

end

example : (⟨"f();\n", 1⟩ : Page).calls
    [.opening "do \x7b", .indented [.line "a;"], .closing "\x7d"] =
      ⟨"f();\n\tdo \x7b\n\t\t\ta;\n\t\x7d\n", 1⟩ := by decide

end WrenGlue.Cpp
