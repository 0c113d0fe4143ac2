/-! What a user can choose about the generated code. -/

namespace WrenGlue.Bindings

structure Options where
  /-- Every generated function first runs a garbage collection, to find values that nothing
  protects from it. -/
  debugGc : Bool := false
  /-- The headers that declare the classes are included. -/
  includeSources : Bool := true
deriving DecidableEq, Repr, Inhabited

end WrenGlue.Bindings
