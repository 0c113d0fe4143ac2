/-! The operators of Wren that a native method can stand for. -/

namespace WrenGlue.Wren

inductive Operator where
  | plus | minus | times | divide | modulo
  | bitAnd | bitOr | bitXor | shiftLeft | shiftRight
  | equal | notEqual | less | lessEqual | greater | greaterEqual
  | not | bitNot
  | inclusiveRange | exclusiveRange
deriving DecidableEq, Repr, Inhabited

namespace Operator

def all : List Operator :=
  [plus, minus, times, divide, modulo, bitAnd, bitOr, bitXor, shiftLeft, shiftRight,
    equal, notEqual, less, lessEqual, greater, greaterEqual, not, bitNot,
    inclusiveRange, exclusiveRange]

theorem mem_all (op : Operator) : op ∈ all := by cases op <;> decide

/-- How a native method spells the operator, after `Operator`. -/
def suffix : Operator → String
  | plus => "Plus"
  | minus => "Minus"
  | times => "Multiply"
  | divide => "Divide"
  | modulo => "Modulo"
  | bitAnd => "And"
  | bitOr => "Or"
  | bitXor => "XOr"
  | shiftLeft => "LeftShift"
  | shiftRight => "RightShift"
  | equal => "EqualTo"
  | notEqual => "NotEqual"
  | less => "LessThan"
  | lessEqual => "LessThanEq"
  | greater => "GreaterThan"
  | greaterEqual => "GreaterThanEq"
  | not => "BoolNegate"
  | bitNot => "BitwiseNegate"
  | inclusiveRange => "DotDot"
  | exclusiveRange => "DotDotDot"

/-- How Wren code writes the operator. -/
def symbol : Operator → String
  | plus => "+"
  | minus => "-"
  | times => "*"
  | divide => "/"
  | modulo => "%"
  | bitAnd => "&"
  | bitOr => "|"
  | bitXor => "^"
  | shiftLeft => "<<"
  | shiftRight => ">>"
  | equal => "=="
  | notEqual => "!="
  | less => "<"
  | lessEqual => "<="
  | greater => ">"
  | greaterEqual => ">="
  | not => "!"
  | bitNot => "~"
  | inclusiveRange => ".."
  | exclusiveRange => "..."

def ofSuffix? (text : String) : Option Operator := all.find? (·.suffix == text)

theorem ofSuffix?_suffix (op : Operator) : ofSuffix? op.suffix = some op := by
  cases op <;> decide

end Operator

end WrenGlue.Wren
