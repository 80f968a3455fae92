import ChutesApi.Affine.Model.Ast
import ChutesApi.Python.Exc
import ChutesApi.Python.Str
import Mathlib.Data.List.Dedup
/-!
# The check of affine code

`check_affine_code` parses the code and walks the tree several times; the
first node that breaks a rule decides the text of the refusal. The rules
that look at one node are definitions of their own, from a node to the
reason it is refused for, in the order the loop tries them.
-/

namespace ChutesApi

namespace Affine

open Python (startsWith endsWith contains)

def maxCodeSize : ℕ := 10000
def maxAstNodes : ℕ := 1000
def maxStringLength : ℕ := 1000
def maxAstDepth : ℕ := 20

def dangerousBuiltins : List String :=
  ["eval", "exec", "compile", "__import__", "open", "input", "breakpoint", "help", "dir",
    "globals", "locals", "vars", "setattr", "delattr", "getattr", "type", "classmethod",
    "staticmethod", "property", "super", "isinstance", "issubclass", "callable", "hasattr",
    "hash", "id", "object", "memoryview", "bytearray", "bytes", "frozenset", "set", "dict",
    "list", "tuple", "range", "slice", "filter", "map", "zip", "enumerate", "reversed",
    "sorted", "any", "all", "str", "repr", "format", "chr", "ord", "hex", "oct", "bin",
    "ascii", "__build_class__", "print"]

def moduleNames : List String :=
  ["__builtins__", "__loader__", "__file__", "__package__", "__spec__", "__cached__", "__name__"]

def stringMethods : List String :=
  ["encode", "decode", "strip", "replace", "translate", "expandtabs", "split", "rsplit",
    "splitlines", "partition", "rpartition", "upper", "lower", "capitalize", "swapcase", "title",
    "center", "ljust", "rjust", "zfill"]

def dangerousAttrs : List String :=
  ["__builtins__", "__globals__", "__code__", "__class__", "__subclasses__", "__bases__",
    "__mro__", "__dict__", "__func__", "__self__", "__module__", "__closure__",
    "__annotations__", "__kwdefaults__", "__defaults__", "__import__", "__loader__",
    "__package__", "__spec__", "__file__", "__cached__", "__name__", "__qualname__", "__init__",
    "__new__", "__del__", "__getattr__", "__setattr__", "__delattr__", "__getattribute__",
    "__call__", "__enter__", "__exit__", "__reduce__", "__reduce_ex__", "__getstate__",
    "__setstate__"]

/-- The attributes of `os` that may be named. -/
def permitted : List String := ["environ", "getenv"]

/-! ## What a node is -/

namespace Ast

def isStr : Ast → Bool
  | .constant (.str _) => true
  | _ => false

/-- `isinstance(node, ast.Name) and node.id == id`. -/
def isName (id : String) : Ast → Bool
  | .name id' _ => id' = id
  | _ => false

/-- The node is `os.environ`. -/
def isEnviron : Ast → Bool
  | .attributeRef value attr _ => value.isName "os" && attr = "environ"
  | _ => false

def isFunctionDef : Ast → Bool
  | .functionDef .. | .forbidden .asyncFunctionDef _ => true
  | _ => false

/-- The loop down an attribute chain: its attributes from the outermost in,
and the node at its end. -/
def attrChain : Ast → List String × Ast
  | .attributeRef value attr _ => (attr :: (attrChain value).1, (attrChain value).2)
  | a => ([], a)

end Ast

/-- `get_ast_depth` with the levels that are left before it stops. -/
def astDepthFrom : ℕ → Ast → ℕ → ℕ
  | 0, _, current => current
  | fuel + 1, node, current =>
    (node.children.map (astDepthFrom fuel · (current + 1))).foldl max current

/-- `get_ast_depth(tree)`, which stops below `MAX_AST_DEPTH`. -/
def astDepth (node : Ast) : ℕ := astDepthFrom (maxAstDepth + 1) node 0

/-! ## The rules of one node -/

def checkLiteral : Ast → Option String
  | .constant (.str value) =>
    if value.toList.contains (.ofNat 0) then none
    else if maxStringLength < value.length then
      some s!"String literal exceeds maximum length of {maxStringLength} characters"
    else none
  | _ => none

def checkJoinedStr : Ast → Option String
  | .joinedStr _ => some "f-strings are not allowed"
  | _ => none

def checkBinOp : Ast → Option String
  | .binOp left .add right =>
    if (left.isStr || right.isStr) && !(left.isStr && right.isStr) then
      some "String concatenation with non-literals is not allowed"
    else none
  | .binOp left .mod _ => if left.isStr then some "String % formatting is not allowed" else none
  | _ => none

def checkCall : Ast → Option String
  | .call (.name id _) _ _ =>
    if id ∈ dangerousBuiltins then some s!"Dangerous function '{id}' is not allowed"
    -- Both are refused as builtins before.
    else if id ∈ ["str", "repr"] then some s!"{id}() constructor is not allowed"
    else none
  | .call (.attributeRef value attr _) _ _ =>
    let moduleName := match value with
      | .name id _ => id
      | _ => ""
    if attr ∈ dangerousBuiltins then some s!"Dangerous function '{attr}' is not allowed"
    else if moduleName ∈ ["pickle", "base64", "marshal", "shelve", "json", "codecs"] then
      some s!"{moduleName} module functions are not allowed"
    else if attr = "format" && value.isStr then some "String .format() method is not allowed"
    else if attr = "join" then some "String .join() method is not allowed"
    else if attr ∈ stringMethods then some s!"String .{attr}() method is not allowed"
    else none
  | _ => none

def checkAttribute : Ast → Option String
  | .attributeRef value attr _ =>
    if startsWith attr "__" && endsWith attr "__" && attr ∈ dangerousAttrs then
      some s!"Access to '{attr}' is not allowed"
    -- The module by its name: what else the value may be is not asked.
    else if value.isName "os" && attr ∉ permitted then
      some s!"os.{attr} is not allowed. Only os.environ and os.getenv are permitted"
    else none
  | _ => none

/-- `deleteTargets` are the identities of the targets of `del`. -/
def checkSubscript (deleteTargets : List (List ℕ)) (n : Node) : Option String :=
  match n.ast with
  | .subscript value slice _ =>
    if value.isEnviron then
      if n.path ∉ deleteTargets && !slice.isStr then
        some "os.environ keys must be string literals (except in delete statements)"
      else none
    else match value with
      | .attributeRef _ attr _ =>
        if attr ∈ ["__getitem__", "__setitem__", "__delitem__"] then
          some "Direct access to special methods is not allowed"
        else none
      | _ => none
  | _ => none

def checkDelete : Ast → Option String
  | .delete targets => targets.findSome? fun
    | .subscript value _ _ =>
      if value.isEnviron then none
      else some "Only 'del os.environ[key]' is allowed for delete operations"
    | _ => some "Delete operations are only allowed for os.environ items"
  | _ => none

def checkDefinition : Ast → Option String
  | .lambda _ => some "Lambda functions are not allowed"
  | .classDef _ => some "Class definitions are not allowed"
  | _ => none

/-- A function definition below another one. -/
def checkNested (nodes : List Node) (n : Node) : Option String :=
  match n.ast with
  | .functionDef .. =>
    if nodes.any fun parent => parent.path != n.path && parent.ast.isFunctionDef
        && parent.walk.any (·.path = n.path) then
      some "Nested function definitions are not allowed"
    else none
  | _ => none

def checkForbidden : Ast → Option String
  | .forbidden cls _ =>
    let name := cls.name
    some s!"{name} is not allowed"
  | _ => none

def checkDecorator : Ast → Option String
  | .call (.attributeRef value attr _) _ _ | .attributeRef value attr _ =>
    if value.isName "chute" && attr = "cord" then some "@chute.cord decorators are not allowed"
    else none
  | .call .. => none
  | _ => some "Decorators are not allowed"

def checkDecorators : Ast → Option String
  | .functionDef _ _ _ decoratorList _ => decoratorList.findSome? checkDecorator
  | _ => none

/-- An assignment to an attribute of `chute`. -/
def checkAssign : Ast → Option String
  | .assign targets _ => targets.findSome? fun target =>
    let (attrs, current) := target.attrChain
    if attrs ≠ [] && current.isName "chute" then
      let chain := ".".intercalate attrs.reverse
      some s!"Assignment to chute.{chain} is not allowed"
    else none
  | _ => none

/-- **The rules of the main loop**, in its order. -/
def checkNode (nodes : List Node) (deleteTargets : List (List ℕ)) (n : Node) : Option String :=
  (checkJoinedStr n.ast).or <| (checkBinOp n.ast).or <| (checkCall n.ast).or <|
    (checkAttribute n.ast).or <| (checkSubscript deleteTargets n).or <|
    (checkDelete n.ast).or <| (checkDefinition n.ast).or <| (checkNested nodes n).or <|
    (checkForbidden n.ast).or <| (checkDecorators n.ast).or <| checkAssign n.ast

/-! ## The imports -/

/-- The names of an import from `chutes.chute` or one of its templates. -/
def importNames (allowed : List String) (reason : String) (names : List Alias) :
    Except String (List String) :=
  names.mapM fun a =>
    if a.name ∈ allowed then .ok (if Python.truthy a.asname then a.asname.getD "" else a.name)
    else .error reason

/-- What a node adds to `imported_names`. -/
def checkImport : Ast → Except String (List String)
  | .name id _ => if id ∈ moduleNames then .error s!"Access to '{id}' is not allowed" else .ok []
  -- The name an import binds the module to is not looked at.
  | .imports names => match names.find? (·.name != "os") with
    | some a =>
      let name := a.name
      .error s!"Invalid import: {name}. Only 'os' is allowed"
    | none => .ok []
  | .importFrom none _ => .error "Invalid import from: None. Only 'from chutes.*' is allowed"
  | .importFrom (some module) names =>
    if !startsWith module "chutes." then
      .error s!"Invalid import from: {module}. Only 'from chutes.*' is allowed"
    else if module = "chutes.chute" then
      importNames ["NodeSelector"] "From chutes.chute, only NodeSelector can be imported" names
    else if startsWith module "chutes.chute.template" then
      importNames ["build_vllm_chute", "build_sglang_chute"]
        s!"From {module}, only build_vllm_chute or build_sglang_chute can be imported" names
    else
      .error <| s!"Invalid import from {module}. " ++
        "Only chutes.chute and chutes.chute.template.* are allowed"
  | _ => .ok []

/-! ## The call that builds the chute -/

/-- One key and value of `engine_args` for vLLM. -/
def checkEngineArg : Option Ast × Ast → Option String
  | (some (.constant (.str key)), value) =>
    if key ∈ ["trust_remote_code", "trust-remote-code"] then
      some s!"engine_args cannot contain '{key}'"
    else match value with
      | .constant _ => none
      | _ => some "engine_args dictionary values must be literals, not dynamic expressions"
  | _ => some "engine_args dictionary keys must be string literals"

/-- One argument of the call. -/
def checkKeyword (funcName : String) : Ast → Option String
  | .keyword none _ => some s!"{funcName} call cannot use **kwargs unpacking"
  | .keyword (some arg) value =>
    if arg = "image" then
      match value with
      | .constant (.str image) =>
        if startsWith image "chutes/sglang" || startsWith image "chutes/vllm" then none
        else some "image must start with 'chutes/sglang' or 'chutes/vllm'"
      | _ => some "image argument must be a string literal, not Image(...)"
    else if arg = "engine_args" then
      if funcName = "build_vllm_chute" then
        match value with
        | .dict keys values => (keys.zip values).findSome? checkEngineArg
        | _ => some "engine_args for build_vllm_chute must be a dictionary literal \x7b...\x7d"
      else if funcName = "build_sglang_chute" then
        match value with
        | .constant (.str args) =>
          if contains args "trust_remote_code" || contains args "trust-remote-code" then
            some "engine_args string cannot contain 'trust_remote_code' or 'trust-remote-code'"
          else none
        | _ => some "engine_args for build_sglang_chute must be a string literal"
      else none
    else none
  | _ => none

/-- One target of an assignment of the module. `chute` is the function
that the variable `chute` was assigned from so far. -/
def checkTarget (importedNames : List String) (value : Ast) (chute : Option String) :
    Ast → Except String (Option String)
  | .name varName _ => match value with
    | .call (.name funcName _) _ keywords =>
      if funcName ∉ ["build_sglang_chute", "build_vllm_chute"] then .ok chute
      else if funcName ∉ importedNames then
        .error s!"Function {funcName} is used but not imported"
      else if varName ≠ "chute" then
        .error s!"Function {funcName} must be assigned to variable 'chute', not '{varName}'"
      else if chute.isSome then .error "Multiple assignments to 'chute' variable"
      else match keywords.findSome? (checkKeyword funcName) with
        | some reason => .error reason
        | none => .ok (some funcName)
    | _ => .ok chute
  | _ => .ok chute

/-- One statement of the module. -/
def checkStatement (importedNames : List String) (chute : Option String) :
    Ast → Except String (Option String)
  | .assign targets value => targets.foldlM (checkTarget importedNames value) chute
  | _ => .ok chute

/-- `extra_vars`: what the module assigns at its top, apart from `chute` and
the variables of its loops. -/
def extraVars (body : List Ast) : List String :=
  let assigned := body.flatMap fun
    | .assign targets _ => targets
    | _ => []
  let loops := body.filterMap fun
    | .loop target .. => some target
    | _ => none
  let names := List.filterMap fun
    | .name id _ => some id
    | _ => none
  (names assigned).filter fun id => id ≠ "chute" && id ∉ names loops

/-! ## The check -/

/-- The limits on the size of the tree. -/
def checkLimits (body : List Ast) : Option String :=
  let nodeCount := (root body).walk.length
  let depth := astDepth (.module body)
  if maxAstNodes < nodeCount then
    some s!"Code complexity exceeds maximum allowed nodes ({nodeCount} > {maxAstNodes})"
  else if maxAstDepth < depth then
    some s!"AST depth exceeds maximum allowed depth ({depth} > {maxAstDepth})"
  else none

/-- The identities of the targets of `del`. -/
def deleteTargets (body : List Ast) : List (List ℕ) :=
  (root body).walk.flatMap fun n => match n.ast with
    | .delete _ => n.children.map (·.path)
    | _ => []

/-- The statements at the top of the module. -/
def checkBody (importedNames : List String) (body : List Ast) : Except String String := do
  match ← body.foldlM (checkStatement importedNames) none with
  | none => throw "No 'chute' variable found calling build_sglang_chute or build_vllm_chute"
  | some chute =>
    let extra := (extraVars body).dedup
    if extra ≠ [] then
      let names := ", ".intercalate (extra.mergeSort fun a b => a ≤ b)
      throw s!"Found extra variables: {names}. Only 'chute' is allowed"
    return s!"Valid chute file with {chute}"

/-- Refuse for the reason, if there is one. -/
def refuse : Option String → Except String Unit
  | some reason => .error reason
  | none => .ok ()

/-- **The check of a parsed module.** -/
def checkTree (body : List Ast) : Except String String := do
  let nodes := (root body).walk
  refuse (checkLimits body)
  refuse (nodes.findSome? fun n => checkLiteral n.ast)
  let importedNames ← nodes.mapM fun n => checkImport n.ast
  refuse (nodes.findSome? (checkNode nodes (deleteTargets body)))
  checkBody importedNames.flatten body

/-- What `ast.parse` raises. -/
inductive ParseError
  | syntaxError (text : String)
  /-- Anything else goes through the check. -/
  | raised (error : Python.PyError)
  deriving DecidableEq, Repr

/-- **`check_affine_code`**, over the parser. -/
def checkAffineCode (parse : String → Except ParseError (List Ast)) (code : String) :
    Except Python.PyError (Bool × String) :=
  if maxCodeSize < code.length then
    .ok (false, s!"Code size exceeds maximum allowed size of {maxCodeSize} bytes")
  else match parse code with
    | .error (.syntaxError e) => .ok (false, s!"Syntax error: {e}")
    | .error (.raised e) => .error e
    | .ok body => match checkTree body with
      | .error reason => .ok (false, reason)
      | .ok text => .ok (true, text)

end Affine

end ChutesApi
