import ChutesApi.Auth.Model.Credentials
import ChutesApi.Python.PathTemplate
/-!
# Which routes a request takes, and what its key is checked for

`host_router_middleware` picks the router and leaves in the request's state
what an API key must give access to. The routes of the images, chutes and
invocations routers are those of the default router.
-/

namespace ChutesApi

open Python

namespace Auth

/-- What the middleware reads of a request. -/
structure HttpRequest where
  /-- `request.headers.get("host", "")`. -/
  host : String := ""
  method : String
  path : String

inductive Router
  | default
  | hostInvocation
  deriving DecidableEq, Repr

/-- What an API key must give access to: `auth_method`, `auth_object_type` and
`auth_object_id`. -/
structure AuthObject where
  method : String
  objectType : String
  objectId : String
  deriving DecidableEq, Repr

/-- What the middleware leaves behind. -/
structure RequestState where
  router : Router
  chuteId : Option String := none
  squadRequest : Bool := false
  freeInvocation : Bool := false
  auth : Option AuthObject := none
  deriving DecidableEq, Repr

/-! ## The middleware -/

def isHostChar (c : Char) : Bool := isDecimal c || ('a' ≤ c && c ≤ 'z') || c = '-'

/-- The group of `^([a-z0-9-]+)\.[a-z0-9-]+` in the host. -/
def hostLabel (host : String) : Option String :=
  let chars := (lower host).toList
  match chars.takeWhile isHostChar, chars.dropWhile isHostChar with
  | [], _ => none
  | label, '.' :: c :: _ => if isHostChar c then some (.ofList label) else none
  | _, _ => none

/-- A character against a letter of a pattern, with `re.I`. -/
def eqIgnoreCase (letter c : Char) : Bool :=
  c.toLower = letter || (letter = 's' && c.toNat = 383)

/-- The group of `^/chutes/([^/]+)/(.+)$`, with `re.I`. -/
def matchInvocation (path : String) : Option String :=
  match split path '/' with
  | root :: chutes :: chuteId :: rest =>
    if root = "" ∧ (List.Forall₂ (eqIgnoreCase · ·) "chutes".toList chutes.toList) ∧ chuteId ≠ "" ∧
        rest ≠ [] ∧ (beforeEnd (join '/' rest)).any (· ≠ "") then some chuteId
    else none
  | _ => none

/-- The group of `^/[^/]+/([^/]+)$`. -/
def matchObject (path : String) : Option String :=
  match split path '/' with
  | [root, objectType, objectId] =>
    if root = "" ∧ objectType ≠ "" ∧ objectId ≠ "" then some objectId else none
  | _ => none

def authMethod (method : String) : String :=
  if method = "post" ∨ method = "put" ∨ method = "patch" then "write"
  else if method = "delete" then "delete"
  else "read"

/-- A request of the router that is picked by hostname. -/
def RequestState.ofHost (chuteId : String) : RequestState where
  router := .hostInvocation
  chuteId := some chuteId
  auth := some ⟨"invoke", "chutes", chuteId⟩

/-- The normal router. -/
def RequestState.ofPath (req : HttpRequest) : RequestState :=
  match if lower req.method = "post" then matchInvocation req.path else none with
  | some chuteId =>
    { router := .default, chuteId := some chuteId, auth := some ⟨"invoke", "chutes", chuteId⟩ }
  | none =>
    { router := .default
      auth := some ⟨authMethod (lower req.method), (split req.path '/').getLastD "",
        (matchObject req.path).getD "__list_or_invalid__"⟩ }

/-- **`host_router_middleware`**, with `chute_id_by_slug` as a parameter. -/
def hostRouterMiddleware (chuteIdBySlug : String → Option String) (req : HttpRequest) :
    RequestState :=
  if req.path = "/ping" then { router := .default }
  else
    match hostLabel req.host with
    | none => .ofPath req
    | some label =>
      if label = "llm" ∧ (lower req.method = "post" ∨ req.path = "/v1/models") then
        .ofHost "__megallm__"
      else if label = "image" ∧ lower req.method = "post" then .ofHost "__megadiffuser__"
      else if label = "api" then .ofPath req
      else
        match chuteIdBySlug (lower label) with
        | none => .ofPath req
        | some chuteId => if chuteId = "" then .ofPath req else .ofHost chuteId

/-! ## The routes -/

/-- **A route**: its method and template, under the prefix of its router, and
the parameter that is the object's id. -/
structure Route where
  method : String
  objectType : String
  parts : List PathPart
  objectParam : Option String := none

/-- `image_router`. -/
def imageRoutes : List Route :=
  let route method parts objectParam : Route :=
    ⟨method, "images", .literal "images" :: parts, objectParam⟩
  [route "GET" [.param "image_id", .literal "logs"] "image_id",
    route "GET" [.literal ""] none,
    route "GET" [.rest "image_id_or_name"] "image_id_or_name",
    route "DELETE" [.rest "image_id_or_name"] "image_id_or_name",
    route "POST" [.literal ""] none]

/-- `chute_router`. Of two decorators the lower one is applied first. -/
def chuteRoutes : List Route :=
  let route method parts objectParam : Route :=
    ⟨method, "chutes", .literal "chutes" :: parts, objectParam⟩
  [route "POST" [.literal "share"] none,
    route "POST" [.literal "unshare"] none,
    route "GET" [.literal ""] none,
    route "GET" [.literal "rolling_updates"] none,
    route "GET" [.literal "gpu_count_history"] none,
    route "GET" [.literal "miner_means"] none,
    route "GET" [.literal "miner_means", .dotted "chute_id" "ext"] "chute_id",
    route "GET" [.literal "miner_means", .param "chute_id"] "chute_id",
    route "GET" [.literal "code", .param "chute_id"] "chute_id",
    route "GET" [.literal "warmup", .rest "chute_id_or_name"] "chute_id_or_name",
    route "GET" [.literal "utilization"] none,
    route "GET" [.rest "chute_id_or_name"] "chute_id_or_name",
    route "DELETE" [.rest "chute_id_or_name"] "chute_id_or_name",
    route "POST" [.literal ""] none,
    route "POST" [.literal "vllm"] none,
    route "POST" [.literal "diffusion"] none,
    route "POST" [.literal "tei"] none,
    route "PUT" [.rest "chute_id_or_name"] "chute_id_or_name"]

/-- `invocation_router`. -/
def invocationRoutes : List Route :=
  let route method parts objectParam : Route :=
    ⟨method, "invocations", .literal "invocations" :: parts, objectParam⟩
  [route "GET" [.literal "usage"] none,
    route "GET" [.literal "stats", .literal "llm"] none,
    route "GET" [.literal "stats", .literal "diffusion"] none,
    route "GET" [.literal "exports", .param "year", .param "month", .param "day",
      .param "hour_format"] none,
    route "GET" [.literal "exports", .literal "recent"] none,
    route "POST" [.param "invocation_id", .literal "report"] "invocation_id"]

/-- The routes of the three routers, in the order they are included. The
prefixes of the other routers are different. -/
def defaultRoutes : List Route := chuteRoutes ++ imageRoutes ++ invocationRoutes

end Auth

end ChutesApi
