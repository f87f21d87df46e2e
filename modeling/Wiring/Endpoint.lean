import Wiring.Registry.Func

/-!
# Endpoints

A function with an `api` directive handles requests of one method on one path.  Every parameter of the
handler but the context is read from the request: from the path if a segment of the path is `:name`
or the name in braces, and otherwise from the query of a `GET` request or from the body.
-/

namespace Wiring

inductive Method where
  | options
  | get
  | post
  | patch
  | put
  | delete
  deriving DecidableEq, Repr

namespace Method

def word : Method → String
  | options => "OPTIONS"
  | get => "GET"
  | post => "POST"
  | patch => "PATCH"
  | put => "PUT"
  | delete => "DELETE"

/-- The method of a name, which must be in upper case. -/
def ofWord? (word : String) : Option Method :=
  [options, get, post, patch, put, delete].find? (·.word == word)

end Method

/-- Where a parameter is read from. -/
inductive ParamSource where
  | path
  | query
  | body
  deriving DecidableEq, Repr

def ParamSource.word : ParamSource → String
  | path => "path"
  | query => "query"
  | body => "body"

/-- A parameter of a handler that is read from the request. -/
structure EndpointParam where
  name : String
  source : ParamSource
  /-- The place among the parameters of the handler. -/
  position : Nat
  deriving DecidableEq, Repr

inductive EndpointError where
  | noPath (handler : String)
  | badMethod (handler : String) (method : String)
  deriving DecidableEq, Repr

def EndpointError.message : EndpointError → String
  | noPath handler => "invalid API path for " ++ handler
  | badMethod handler method => "invalid API method " ++ Text.quote method ++ " for " ++ handler

structure Endpoint where
  handler : Func
  method : Method
  path : String
  params : List EndpointParam
  /-- The place of the response among the results of the handler. -/
  responseAt : Option Nat
  deriving DecidableEq

namespace Endpoint

/-- Whether a segment of a path stands for the parameter of this name. -/
def segmentBinds (name : List Char) (segment : List Char) : Bool :=
  segment == ':' :: name || segment == '\x7b' :: name ++ ['\x7d']

/-- Whether some segment of a path stands for the parameter of this name. -/
def pathBinds (path : String) (name : String) : Bool :=
  (path.toList.splitOn '/').any (segmentBinds name.toList)

def sourceOf (path : String) (method : Method) (name : String) : ParamSource :=
  if !name.toList.isEmpty && pathBinds path name then .path
  else if method = .get then .query
  else .body

/-- The method that a directive asks for, `GET` if it names none. -/
def methodOf (handler : Func) (d : Directive) : Except EndpointError Method :=
  match d.param "method" with
  | none => .ok .get
  | some word =>
    match Method.ofWord? word with
    | some m => .ok m
    | none => .error (.badMethod handler.fqn word)

def pathOf (handler : Func) (d : Directive) : Except EndpointError String :=
  match d.param "path" with
  | some path => if path.toList.isEmpty then .error (.noPath handler.fqn) else .ok path
  | none => .error (.noPath handler.fqn)

def paramsOf (path : String) (method : Method) (params : List Slot) : List EndpointParam :=
  (params.zipIdx.filter fun (p, _) => !p.isContext).map fun (p, position) =>
    ⟨p.name, sourceOf path method p.name, position⟩

def ofDirective (handler : Func) (d : Directive) : Except EndpointError Endpoint := do
  let method ← methodOf handler d
  let path ← pathOf handler d
  return { handler, method, path
           params := paramsOf path method handler.params
           responseAt := handler.returns.findIdx? (!·.isError) }

/-- The parameter of the handler behind a parameter of the endpoint. -/
def slotOf? (e : Endpoint) (p : EndpointParam) : Option Slot :=
  e.handler.params[p.position]?

/-- The first result whose core is not the built-in error. -/
def response? (e : Endpoint) : Option Slot :=
  e.responseAt.bind fun i => e.handler.returns[i]?

def service? (e : Endpoint) : Option TypeName :=
  e.handler.receiver.bind (·.type?)

def route (e : Endpoint) : String :=
  e.method.word ++ " " ++ e.path

end Endpoint

end Wiring
