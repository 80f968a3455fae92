import ChutesApi.Auth.Model.Middleware
/-!
# When the scopes of an API key decide

A key without admin rights has a list of scopes. A request should be granted
when one of them covers the resource it is routed to: `scopesDecide_iff` says
for which requests what the middleware reads off the path comes to that.
-/

namespace ChutesApi

open Python

namespace Auth

/-- The object types that `validate_object_type` lets through. -/
def objectTypes : List String := ["images", "chutes", "invocations"]

/-- The actions of the methods. -/
def actionOf (method : String) : String :=
  if method ∈ ["POST", "PUT", "PATCH"] then "write"
  else if method = "DELETE" then "delete"
  else "read"

/-- **What a request is for.** -/
structure Resource where
  objectType : String
  /-- The id in the path, if there is one. -/
  objectId : Option String
  action : String
  deriving DecidableEq, Repr

/-- The chute of an invocation, a `POST` to `/chutes/<id>/<path>`. -/
def invokedChute (req : HttpRequest) : Option String :=
  match split req.path '/' with
  | root :: chutes :: chuteId :: rest =>
    if req.method = "POST" ∧ root = "" ∧ chutes = "chutes" ∧ chuteId ≠ "" ∧ rest ≠ [] ∧
        (beforeEnd (join '/' rest)).any (· ≠ "") then some chuteId
    else none
  | _ => none

/-- The first route that takes a request, with its parameters. -/
def routeOf (req : HttpRequest) : Option (Route × PathParams) :=
  defaultRoutes.findSome? fun route =>
    if route.method = req.method then (matchPath route.parts req.path).map (route, ·) else none

def Route.resource (route : Route) (params : PathParams) : Resource where
  objectType := route.objectType
  objectId := route.objectParam.bind fun name => List.lookup name params
  action := actionOf route.method

variable (chuteIdBySlug : String → Option String) (req : HttpRequest)

/-- **Where a request is routed to**, if it is left to the default router and
is an invocation or taken by a route of the three routers. -/
def routedTo : Option Resource :=
  if (hostRouterMiddleware chuteIdBySlug req).router = .default then
    match invokedChute req with
    | some chuteId => some ⟨"chutes", some chuteId, "invoke"⟩
    | none => (routeOf req).map fun e => e.1.resource e.2
  else none

/-- A scope covers a resource. -/
def ApiKeyScope.Covers (scope : ApiKeyScope) (resource : Resource) : Prop :=
  scope.objectType = resource.objectType ∧
    (scope.objectId = none ∨ scope.objectId = resource.objectId) ∧
    ∀ action, scope.action = some action → action.value = resource.action

/-- A key without admin rights whose scopes are as the table takes them. -/
def ApiKey.Scoped (apiKey : ApiKey) : Prop :=
  apiKey.admin = false ∧ ∀ scope ∈ apiKey.scopes, scope.objectType ∈ objectTypes

/-- The access check on what the middleware left in the request's state. -/
def granted (apiKey : ApiKey) : Bool :=
  (hostRouterMiddleware chuteIdBySlug req).auth.any fun auth =>
    apiKey.hasAccess auth.objectType auth.objectId auth.method

variable {chuteIdBySlug req}

/-! ## One access check against one resource -/

/-- **A check is exact for a resource**: keys pass it if some scope of theirs
covers the resource. -/
def AuthObject.Exact (auth : AuthObject) (resource : Resource) : Prop :=
  ∀ apiKey : ApiKey, apiKey.Scoped →
    (apiKey.hasAccess auth.objectType auth.objectId auth.method = true ↔
      ∃ scope ∈ apiKey.scopes, scope.Covers resource)

/-- A key with one scope. -/
def oneScope (scope : ApiKeyScope) : ApiKey where
  apiKeyId := "key"
  keyHash := ""
  user := none
  admin := false
  scopes := [scope]

theorem hasAccess_scope_iff (scope : ApiKeyScope) (auth : AuthObject) :
    scope.hasAccess auth.objectType auth.objectId auth.method = true ↔
      scope.objectType = auth.objectType ∧
        (auth.objectType = "chutes" ∧ auth.objectId ∈ ["__megallm__", "__megadiffuser__"] ∨
          scope.objectId = none ∨ scope.objectId = some auth.objectId) ∧
        ∀ action, scope.action = some action → action.value = auth.method := by
  unfold ApiKeyScope.hasAccess
  rcases scope.objectId with _ | oid <;> rcases scope.action with _ | action
  all_goals simp
  all_goals tauto

theorem hasAccess_iff {apiKey : ApiKey} (hadmin : apiKey.admin = false) (auth : AuthObject) :
    apiKey.hasAccess auth.objectType auth.objectId auth.method = true ↔
      ∃ scope ∈ apiKey.scopes,
        scope.hasAccess auth.objectType auth.objectId auth.method = true := by
  rw [ApiKey.hasAccess, hadmin, Bool.false_or, List.any_eq_true]

/-- What exactness says of one scope. -/
theorem AuthObject.Exact.one {auth : AuthObject} {resource : Resource}
    (h : auth.Exact resource) {scope : ApiKeyScope} (hscope : scope.objectType ∈ objectTypes) :
    scope.hasAccess auth.objectType auth.objectId auth.method = true ↔ scope.Covers resource := by
  have hone := h (oneScope scope) ⟨rfl, by simpa [oneScope] using hscope⟩
  rw [hasAccess_iff rfl] at hone
  simpa [oneScope] using hone

/-- **When a check is exact**: for the type and the id of the resource, and
not for one of the two ids that any scope is let through for. -/
theorem exact_iff {auth : AuthObject} {resource : Resource}
    (htype : resource.objectType ∈ objectTypes) (haction : auth.method = resource.action) :
    auth.Exact resource ↔ auth.objectType = resource.objectType ∧
      resource.objectId = some auth.objectId ∧
      ¬(auth.objectType = "chutes" ∧ auth.objectId ∈ ["__megallm__", "__megadiffuser__"]) := by
  constructor
  · intro h
    have hall : ApiKeyScope.Covers ⟨resource.objectType, none, none⟩ resource :=
      ⟨rfl, .inl rfl, fun action ha => by cases ha⟩
    have hsame : auth.objectType = resource.objectType :=
      ((hasAccess_scope_iff _ auth).1 ((h.one htype).2 hall)).1.symm
    have hid : ApiKeyScope.hasAccess auth.objectType auth.objectId auth.method
        ⟨resource.objectType, some auth.objectId, none⟩ = true :=
      (hasAccess_scope_iff _ auth).2 ⟨hsame.symm, .inr (.inr rfl), fun action ha => by cases ha⟩
    have hsome : resource.objectId = some auth.objectId := by
      obtain hnone | hsome := ((h.one htype).1 hid).2.1
      · cases hnone
      · exact hsome.symm
    refine ⟨hsame, hsome, fun hmega => ?_⟩
    -- A scope for another chute is let through.
    have hother : ApiKeyScope.hasAccess auth.objectType auth.objectId auth.method
        ⟨resource.objectType, some "", none⟩ = true :=
      (hasAccess_scope_iff _ auth).2 ⟨hsame.symm, .inl hmega, fun action ha => by cases ha⟩
    obtain hnone | hempty := ((h.one htype).1 hother).2.1
    · cases hnone
    · have hid := Option.some.inj (hempty.trans hsome)
      have := hmega.2
      rw [← hid] at this
      exact absurd this (by decide)
  · rintro ⟨hsame, hsome, hmega⟩ apiKey ⟨hadmin, -⟩
    rw [hasAccess_iff hadmin]
    refine exists_congr fun scope => and_congr_right fun _ => ?_
    rw [hasAccess_scope_iff, or_iff_right hmega, ApiKeyScope.Covers, hsame, hsome, haction]

/-! ## What the middleware reads off a path -/

theorem lower_methods : lower "GET" = "get" ∧ lower "POST" = "post" ∧ lower "PUT" = "put" ∧
    lower "DELETE" = "delete" := by
  decide

/-- An invocation is one for the middleware. -/
theorem matchInvocation_of_invokedChute {chuteId : String} (h : invokedChute req = some chuteId) :
    req.method = "POST" ∧ matchInvocation req.path = some chuteId := by
  unfold invokedChute at h
  unfold matchInvocation
  generalize split req.path '/' = segments at h ⊢
  split at h
  · obtain ⟨⟨hpost, hroot, rfl, hid, hrest, hpath⟩, hsome⟩ := Option.ite_none_right_eq_some.1 h
    have hchutes : List.Forall₂ (eqIgnoreCase · ·) "chutes".toList "chutes".toList := by
      decide
    exact ⟨hpost, (if_pos ⟨hroot, hchutes, hid, hrest, hpath⟩).trans hsome⟩
  · cases h

/-- **What the middleware comes to**: the check of a ping, that of the path, or
that of a host. -/
theorem hostRouterMiddleware_cases (chuteIdBySlug : String → Option String) (req : HttpRequest) :
    (req.path = "/ping" ∧ hostRouterMiddleware chuteIdBySlug req = { router := .default }) ∨
      hostRouterMiddleware chuteIdBySlug req = .ofPath req ∨
      ∃ chuteId, hostRouterMiddleware chuteIdBySlug req = .ofHost chuteId := by
  unfold hostRouterMiddleware
  by_cases hping : req.path = "/ping"
  · exact .inl ⟨hping, if_pos hping⟩
  refine .inr ?_
  rw [if_neg hping]
  rcases hostLabel req.host with _ | label
  · exact .inl rfl
  simp only
  split_ifs
  · exact .inr ⟨_, rfl⟩
  · exact .inr ⟨_, rfl⟩
  · exact .inl rfl
  · rcases chuteIdBySlug (lower label) with _ | chuteId
    · exact .inl rfl
    · by_cases hempty : chuteId = ""
      · exact .inl (if_pos hempty)
      · exact .inr ⟨chuteId, if_neg hempty⟩

/-- An invocation is checked as one. -/
theorem ofPath_of_invokedChute {chuteId : String} (h : invokedChute req = some chuteId) :
    (RequestState.ofPath req).auth = some ⟨"invoke", "chutes", chuteId⟩ := by
  obtain ⟨hpost, hmatch⟩ := matchInvocation_of_invokedChute h
  rw [RequestState.ofPath, hpost, if_pos lower_methods.2.1, hmatch]

theorem mem_of_routeOf {route : Route} {params : PathParams}
    (h : routeOf req = some (route, params)) : route ∈ defaultRoutes ∧ route.method = req.method ∧
      matchPath route.parts req.path = some params := by
  obtain ⟨route', hmem, h⟩ := List.exists_of_findSome?_eq_some h
  obtain ⟨hmethod, h⟩ := Option.ite_none_right_eq_some.1 h
  obtain ⟨params', hmatch, heq⟩ := Option.map_eq_some_iff.1 h
  obtain ⟨rfl, rfl⟩ := Prod.mk.inj heq
  exact ⟨hmem, hmethod, hmatch⟩

/-! ## The routes -/

/-- What `auth_object_id` is where it is not the second of two segments. -/
abbrev noObject : String := "__list_or_invalid__"

/-- **A path with a check for the router's type and the path's id**, as the
template of a route takes the path. -/
structure ReadRight (objectType name path : String) (parts : List PathPart) : Prop where
  known : objectType ∈ objectTypes
  last : (split path '/').getLastD "" = objectType
  id : ∃ params, matchPath (.literal objectType :: parts) path = some params ∧
    List.lookup name params = some ((matchObject path).getD noObject)

namespace ReadRight

variable {objectType name path : String} {part : PathPart} {parts : List PathPart}

/-- The segments of the path. -/
theorem segments (h : ReadRight objectType name path (part :: parts)) :
    ∃ segment rest params, split path '/' = "" :: objectType :: segment :: rest ∧
      (segment :: rest).getLastD "" = objectType ∧
      matchParts (part :: parts) (segment :: rest) = some params ∧
      List.lookup name params = some ((matchObject path).getD noObject) := by
  obtain ⟨params, hmatch, hid⟩ := h.id
  have hlast := h.last
  rw [matchPath] at hmatch
  rcases hsplit : split path '/' with _ | ⟨root, _ | ⟨first, _ | ⟨segment, rest⟩⟩⟩
  · simp [hsplit, matchParts] at hmatch
  · simp [hsplit, matchParts] at hmatch
  · simp [hsplit, matchParts] at hmatch
  · simp only [hsplit, matchParts, reduceCtorEq, false_and, or_false] at hmatch
    obtain ⟨hroot, hfirst⟩ := Option.ite_none_right_eq_some.1 hmatch
    obtain ⟨htype, hrest⟩ := Option.ite_none_right_eq_some.1 hfirst
    rw [hsplit] at hlast
    refine ⟨segment, rest, params, by rw [hroot, htype], ?_, hrest, hid⟩
    simpa using hlast

theorem noObject_of_three {a b c d : String} {rest : List String}
    (h : split path '/' = a :: b :: c :: d :: rest) :
    (matchObject path).getD noObject = noObject := by
  rw [matchObject, h]
  rfl

theorem not_noObject (h : objectType ∈ objectTypes) :
    objectType ≠ noObject ∧ objectType ≠ noObject ++ "\n" ∧ '.' ∉ objectType.toList := by
  revert h objectType
  decide

/-- `{image_id}/logs` and `{invocation_id}/report`. -/
theorem not_param_literal {text : String} (htext : text ∉ objectTypes)
    (htext' : text ++ "\n" ∉ objectTypes)
    (h : ReadRight objectType name path [.param name, .literal text]) : False := by
  obtain ⟨segment, rest, params, -, hlast, hmatch, -⟩ := h.segments
  have hknown := h.known
  rcases rest with _ | ⟨b, _ | ⟨c, rest⟩⟩
  · simp [matchParts] at hmatch
  · simp only [List.getLastD_cons, List.getLastD_nil] at hlast
    subst hlast
    simp only [matchParts] at hmatch
    obtain ⟨-, hmatch⟩ := Option.ite_none_left_eq_some.1 hmatch
    obtain ⟨params', hmatch', -⟩ := Option.map_eq_some_iff.1 hmatch
    obtain ⟨rfl | ⟨-, rfl⟩, -⟩ := Option.ite_none_right_eq_some.1 hmatch'
    · exact htext hknown
    · exact htext' hknown
  · simp [matchParts] at hmatch

/-- The segments behind a second text, where there is no object. -/
theorem segments_of_literal {text : String}
    (h : ReadRight objectType name path [.literal text, part]) :
    ∃ segment rest params, (segment :: rest).getLastD "" = objectType ∧
      matchParts [part] (segment :: rest) = some params ∧
      List.lookup name params = some noObject := by
  obtain ⟨first, rest, params, hsplit, hlast, hmatch, hid⟩ := h.segments
  rcases rest with _ | ⟨segment, rest⟩
  · simp [matchParts] at hmatch
  rw [noObject_of_three hsplit] at hid
  simp only [matchParts, reduceCtorEq, false_and, or_false] at hmatch
  obtain ⟨-, hmatch'⟩ := Option.ite_none_right_eq_some.1 hmatch
  exact ⟨segment, rest, params, by simpa using hlast, hmatch', hid⟩

/-- `code/{chute_id}` and the like. -/
theorem not_literal_param {text : String}
    (h : ReadRight objectType name path [.literal text, .param name]) : False := by
  obtain ⟨segment, rest, params, hlast, hmatch, hid⟩ := h.segments_of_literal
  rcases rest with _ | ⟨b, rest⟩
  · simp only [matchParts] at hmatch
    obtain ⟨-, hmatch⟩ := Option.ite_none_left_eq_some.1 hmatch
    obtain rfl := Option.some.inj hmatch
    rw [List.lookup_cons_self, Option.some.injEq] at hid
    exact (not_noObject h.known).1 (hlast.symm.trans hid)
  · simp [matchParts] at hmatch

/-- `miner_means/{chute_id}.{ext}`. -/
theorem not_literal_dotted {text ext : String}
    (h : ReadRight objectType name path [.literal text, .dotted name ext]) : False := by
  obtain ⟨segment, rest, params, hlast, hmatch, -⟩ := h.segments_of_literal
  rcases rest with _ | ⟨b, rest⟩
  · simp only [matchParts] at hmatch
    split at hmatch
    · rename_i hdot
      have hmem : '.' ∈ segment.toList := by
        rw [append_splitDot hdot]
        simp
      exact (not_noObject h.known).2.2 (hlast ▸ hmem)
    · cases hmatch
  · simp only [matchParts] at hmatch
    split at hmatch
    · simp at hmatch
    · cases hmatch

/-- The rest of a path, if it is a text without a slash. -/
theorem eq_of_matchParts_rest {segment value : String} {rest : List String} {params : PathParams}
    (hmatch : matchParts [.rest name] (segment :: rest) = some params)
    (hid : List.lookup name params = some value) (hslash : '/' ∉ value.toList) :
    rest = [] ∧ (segment = value ∨ segment = value ++ "\n") := by
  simp only [matchParts] at hmatch
  obtain ⟨value', hvalue, rfl⟩ := Option.map_eq_some_iff.1 hmatch
  rw [List.lookup_cons_self, Option.some.injEq] at hid
  subst hid
  have hjoin := of_beforeEnd hvalue
  rcases rest with _ | ⟨b, rest⟩
  · rw [join_singleton] at hjoin
    exact ⟨rfl, hjoin⟩
  · have hmem : '/' ∈ (join '/' (segment :: b :: rest)).toList := mem_join
    obtain hj | hj := hjoin
    · exact absurd (hj ▸ hmem) hslash
    · rw [hj, String.toList_append, List.mem_append] at hmem
      obtain hm | hm := hmem
      · exact absurd hm hslash
      · exact absurd hm (by decide)

/-- `warmup/{chute_id_or_name:path}`. -/
theorem not_literal_rest {text : String}
    (h : ReadRight objectType name path [.literal text, .rest name]) : False := by
  obtain ⟨segment, rest, params, hlast, hmatch, hid⟩ := h.segments_of_literal
  obtain ⟨rfl, hsegment⟩ := eq_of_matchParts_rest hmatch hid (by decide)
  simp only [List.getLastD_cons, List.getLastD_nil] at hlast
  subst hlast
  obtain ⟨hne, hne', -⟩ := not_noObject h.known
  exact hsegment.elim hne hne'

/-- `{chute_id_or_name:path}` and the like. -/
theorem eq_of_rest (h : ReadRight objectType name path [.rest name]) :
    path = join '/' ["", objectType, objectType] := by
  obtain ⟨segment, rest, params, hsplit, hlast, hmatch, hid⟩ := h.segments
  obtain ⟨hne, hne', -⟩ := not_noObject h.known
  -- Where the check is for no object the last segment is none either.
  have hnone : (matchObject path).getD noObject ≠ noObject := by
    intro hno
    rw [hno] at hid
    obtain ⟨rfl, hsegment⟩ := eq_of_matchParts_rest hmatch hid (by decide)
    simp only [List.getLastD_cons, List.getLastD_nil] at hlast
    subst hlast
    exact hsegment.elim hne hne'
  rcases rest with _ | ⟨b, rest⟩
  · simp only [List.getLastD_cons, List.getLastD_nil] at hlast
    subst hlast
    rw [← join_split path '/', hsplit]
  · exact absurd (noObject_of_three hsplit) hnone

end ReadRight

/-- **The routes of the three routers.** -/
structure Route.Known (route : Route) : Prop where
  objectType : route.objectType ∈ objectTypes
  action : authMethod (lower route.method) = actionOf route.method
  /-- What is posted is not an invocation. -/
  posted : lower route.method = "post" →
    (∃ text, route.parts = [.literal route.objectType, .literal text]) ∨
      ∃ parts, route.parts = .literal "invocations" :: parts
  object : ∀ name, route.objectParam = some name → ∃ parts,
    route.parts = .literal route.objectType :: parts ∧
      (parts = [.rest name] ∧ route.objectType ≠ "invocations" ∨
        (∃ text ∈ ["logs", "report"], parts = [.param name, .literal text]) ∨
        ∃ text, parts = [.literal text, .param name] ∨ parts = [.literal text, .rest name] ∨
          ∃ ext, parts = [.literal text, .dotted name ext])

theorem known_of_mem {route : Route} (h : route ∈ defaultRoutes) : route.Known where
  objectType := by
    revert route
    decide
  action := by
    revert route
    decide
  posted := by
    obtain ⟨hget, -, hput, hdelete⟩ := lower_methods
    revert route
    simp [defaultRoutes, chuteRoutes, imageRoutes, invocationRoutes, hget, hput, hdelete]
  object := by
    revert route
    simp [defaultRoutes, chuteRoutes, imageRoutes, invocationRoutes]

/-- What a route is posted to is no invocation for the middleware. -/
theorem Route.Known.matchInvocation_eq_none {route : Route} (h : route.Known)
    (hpost : lower route.method = "post") {path : String} {params : PathParams}
    (hmatch : matchPath route.parts path = some params) : matchInvocation path = none := by
  rw [matchPath] at hmatch
  unfold matchInvocation
  split
  · rename_i root chutes chuteId rest hsplit
    rw [hsplit] at hmatch
    refine if_neg ?_
    rintro ⟨-, hchutes, -, hrest, -⟩
    obtain ⟨text, hparts⟩ | ⟨parts, hparts⟩ := h.posted hpost
    · rw [hparts] at hmatch
      simp [matchParts, hrest] at hmatch
    · rw [hparts] at hmatch
      simp only [matchParts, reduceCtorEq, false_and, or_false] at hmatch
      obtain ⟨-, hmatch'⟩ := Option.ite_none_right_eq_some.1 hmatch
      obtain ⟨rfl, -⟩ := Option.ite_none_right_eq_some.1 hmatch'
      exact absurd hchutes (by decide)
  · rfl

/-- **What a request on a route is checked for.** -/
theorem Route.Known.ofPath_auth {route : Route} (h : route.Known)
    (hmethod : route.method = req.method)
    {params : PathParams} (hmatch : matchPath route.parts req.path = some params) :
    (RequestState.ofPath req).auth = some ⟨actionOf route.method,
      (split req.path '/').getLastD "", (matchObject req.path).getD noObject⟩ := by
  have hnone : (if lower req.method = "post" then matchInvocation req.path else none) = none := by
    by_cases hpost : lower req.method = "post"
    · rw [if_pos hpost]
      exact h.matchInvocation_eq_none (hmethod ▸ hpost) hmatch
    · exact if_neg hpost
  rw [RequestState.ofPath, hnone, ← hmethod, ← h.action]

/-- **Where the check is right for a route**, the path names the router
twice. -/
theorem Route.Known.path_eq {route : Route} (h : route.Known) {path : String} {params : PathParams}
    (hmatch : matchPath route.parts path = some params)
    (hlast : (split path '/').getLastD "" = route.objectType)
    (hid : (route.resource params).objectId = some ((matchObject path).getD noObject)) :
    path = "/images/images" ∨ path = "/chutes/chutes" := by
  obtain ⟨name, hname, hlookup⟩ := Option.bind_eq_some_iff.1 hid
  obtain ⟨parts, hparts, hshape⟩ := h.object name hname
  have hright : ReadRight route.objectType name path parts :=
    ⟨h.objectType, hlast, params, hparts ▸ hmatch, hlookup⟩
  obtain ⟨rfl, hne⟩ | ⟨text, htext, rfl⟩ | ⟨text, rfl | rfl | ⟨ext, rfl⟩⟩ := hshape
  · have hpath := hright.eq_of_rest
    have hknown := h.objectType
    simp only [objectTypes, List.mem_cons, List.not_mem_nil, or_false] at hknown
    obtain htype | htype | htype := hknown
    · rw [htype] at hpath
      exact .inl (hpath.trans (by decide))
    · rw [htype] at hpath
      exact .inr (hpath.trans (by decide))
    · exact absurd htype hne
  · have hother : ∀ text ∈ ["logs", "report"],
        text ∉ objectTypes ∧ text ++ "\n" ∉ objectTypes := by
      decide
    exact (hright.not_param_literal (hother text htext).1 (hother text htext).2).elim
  · exact hright.not_literal_param.elim
  · exact hright.not_literal_rest.elim
  · exact hright.not_literal_dotted.elim

/-- The two paths are checked for what they are routed to. -/
theorem resource_of_twice {route : Route} (h : route ∈ defaultRoutes) {path : String}
    {params : PathParams} (hpath : path ∈ ["/images/images", "/chutes/chutes"])
    (hmatch : matchPath route.parts path = some params) :
    (split path '/').getLastD "" = route.objectType ∧
      (route.resource params).objectId = some ((matchObject path).getD noObject) ∧
      (matchObject path).getD noObject ∉ ["__megallm__", "__megadiffuser__"] := by
  have hall : ∀ path ∈ ["/images/images", "/chutes/chutes"],
      ∀ route ∈ defaultRoutes, (matchPath route.parts path).all fun params =>
        (split path '/').getLastD "" = route.objectType ∧
          (route.resource params).objectId = some ((matchObject path).getD noObject) ∧
          (matchObject path).getD noObject ∉ ["__megallm__", "__megadiffuser__"] := by
    decide
  have := hall _ hpath _ h
  rw [hmatch] at this
  simpa using this

/-! ## The scopes -/

/-- What is granted is the check of the path, where the default router takes
a request that is not a ping. -/
theorem granted_eq (hdefault : (hostRouterMiddleware chuteIdBySlug req).router = .default)
    (hping : req.path ≠ "/ping") {auth : AuthObject}
    (hauth : (RequestState.ofPath req).auth = some auth) (apiKey : ApiKey) :
    granted chuteIdBySlug req apiKey =
      apiKey.hasAccess auth.objectType auth.objectId auth.method := by
  unfold granted
  obtain ⟨hp, -⟩ | heq | ⟨chuteId, heq⟩ := hostRouterMiddleware_cases chuteIdBySlug req
  · exact absurd hp hping
  · rw [heq, hauth, Option.any_some]
  · rw [heq] at hdefault
    cases hdefault

/-- No invocation and no route is a ping. -/
theorem not_ping {resource : Resource}
    (h : (match invokedChute req with
      | some chuteId => some ⟨"chutes", some chuteId, "invoke"⟩
      | none => (routeOf req).map fun e => e.1.resource e.2) = some resource) :
    req.path ≠ "/ping" := by
  intro hping
  have hinvoked : invokedChute req = none := by
    have hsplit : split "/ping" '/' = ["", "ping"] := by decide
    simp [invokedChute, hping, hsplit]
  rw [hinvoked] at h
  obtain ⟨⟨route, params⟩, hroute, -⟩ := Option.map_eq_some_iff.1 h
  obtain ⟨hmem, -, hmatch⟩ := mem_of_routeOf hroute
  have hnone : ∀ route ∈ defaultRoutes, matchPath route.parts "/ping" = none := by decide
  rw [hping, hnone route hmem] at hmatch
  cases hmatch

/-- An invocation has more than two segments. -/
theorem invokedChute_twice (h : req.path = "/images/images" ∨ req.path = "/chutes/chutes") :
    invokedChute req = none := by
  have himages : split "/images/images" '/' = ["", "images", "images"] := by decide
  have hchutes : split "/chutes/chutes" '/' = ["", "chutes", "chutes"] := by decide
  obtain h | h := h
  · simp [invokedChute, h, himages]
  · simp [invokedChute, h, hchutes]

end Auth

end ChutesApi
