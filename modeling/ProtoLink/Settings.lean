/-! What a user can choose about the generated code. -/
namespace ProtoLink

/-- The flavour of service code: callbacks as in gRPC for JavaScript, or promises and async iterators. -/
inductive Style where
  | grpcJs
  | async
deriving DecidableEq, Repr, Inhabited

namespace Style

def name : Style → String
  | .grpcJs => "grpc-js"
  | .async => "async"

def ofName? (name : String) : Option Style :=
  if name = "grpc-js" then some .grpcJs
  else if name = "async" then some .async
  else none

@[simp] theorem ofName?_name (style : Style) : ofName? style.name = some style := by
  cases style <;> decide

end Style

/-- The settings of one run. -/
structure Settings where
  /-- Calls with a single answer return a promise. -/
  unaryRpcPromise : Bool := false
  /-- The module that the runtime is imported from. -/
  grpcPackage : String := "@fyn-software/grpc"
  /-- References into other files are shortened by a package name. -/
  noNamespace : Bool := true
  style : Style := .async
deriving DecidableEq, Repr, Inhabited

/-- One choice. -/
inductive Setting where
  | unaryRpcPromise (value : Bool)
  | grpcPackage (value : String)
  | noNamespace (value : Bool)
  | style (value : Style)
deriving DecidableEq, Repr

/-- The settings after one more choice. -/
def Settings.choose (settings : Settings) : Setting → Settings
  | .unaryRpcPromise value => { settings with unaryRpcPromise := value }
  | .grpcPackage value => { settings with grpcPackage := value }
  | .noNamespace value => { settings with noNamespace := value }
  | .style value => { settings with style := value }

end ProtoLink
