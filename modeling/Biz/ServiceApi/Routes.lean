import Biz.Library.Checks
import Biz.Text

/-!
# Routes that need a signature

`service_api_auth.go` keeps the routes of the operations that are configured for service
signing. `httpAuthentication` refuses a bearer without tenant and user on such a route: it asks
`requiresSignature`, which takes every error of `resolveRoute` for a route of no such operation.
A request that fits the templates of two operations is therefore let through.

`strings.ToUpper` and the other ways to authenticate are parameters.
-/

namespace Biz.ServiceApi

open Checks Text

structure Route where
  operation : String
  method : String
  template : String

structure ResolvedRoute where
  operation : String
  tenantId : String

/-- `strings.Split(strings.Trim(s, "/"), "/")`. -/
def parts (s : String) : List String :=
  let slash : Char → Bool := (· = '/')
  ((((s.toList.dropWhile slash).reverse.dropWhile slash).reverse).splitOn '/').map String.ofList

/-- The name between the braces of a template's part. -/
def parameter (expected : String) : Option String :=
  match expected.toList with
  | '\x7b' :: rest =>
    if rest.getLast? = some '\x7d' then some (trimSpace (String.ofList rest.dropLast)) else none
  | _ => none

/-- The loop over the parts. Of the parameters, the last one set stands first. -/
def matchParts (params : List (String × String)) :
    List String → List String → Option (List (String × String))
  | [], [] => some params
  | expected :: template, actual :: path =>
    if actual ∈ ["", ".", ".."] then none
    else match parameter expected with
      | some name => if name = "" then none else matchParts ((name, actual) :: params) template path
      | none => if expected = actual then matchParts params template path else none
  | _, _ => none

def matchServiceApiRoute (template path : String) : Option (List (String × String)) :=
  if template = "" ∨ path = "" ∨ ['/', '/'] <:+: path.toList then none
  else matchParts [] (parts template) (parts path)

inductive RouteError
  | ambiguousOperationRoute | operationRouteNotFound

/-- The loop of `resolveRoute`, with the route found so far. -/
def resolveFrom (method path : String) :
    Option ResolvedRoute → List Route → Except RouteError ResolvedRoute
  | none, [] => .error .operationRouteNotFound
  | some found, [] => .ok found
  | found, route :: rest =>
    if route.method ≠ method then resolveFrom method path found rest
    else match matchServiceApiRoute route.template path with
      | none => resolveFrom method path found rest
      | some params =>
        if found.any (·.operation ≠ route.operation) then .error .ambiguousOperationRoute
        else resolveFrom method path
          (some ⟨route.operation, (params.lookup "tenant_id").getD ""⟩) rest

structure Request where
  method : String
  path : String
  header : String → String

structure Authenticator where
  required : List String
  routes : List Route

variable (toUpper : String → String) (auth : Authenticator) (request : Request)

def Authenticator.resolveRoute : Except RouteError ResolvedRoute :=
  resolveFrom (toUpper (trimSpace request.method)) request.path none auth.routes

def Authenticator.requiresSignature : Bool :=
  (auth.resolveRoute toUpper request).toOption.any (·.operation ∈ auth.required)

def Request.signedHeadersPresent : Bool :=
  ["X-Biz-Service-Key-Id", "X-Biz-Service-Timestamp", "X-Biz-Service-Nonce",
    "X-Biz-Service-Signature"].any fun name => trimSpace (request.header name) ≠ ""

/-- No letter of the scheme folds to one outside ASCII. -/
def parseBearer (value : String) : String :=
  let value := (trimSpace value).toList
  if (value.take 7).map Char.toLower = "bearer ".toList then trimSpace
    (String.ofList (value.drop 7))
  else ""

structure Principal where
  tenantId : String
  userId : String

inductive Failure
  | invalidRequest | missingSignature | unauthorized
  | refused (reason : String)

/-- The ways to authenticate that are not modelled here. -/
structure Methods where
  signed : Request → Except Failure Principal
  bearer : String → Except Failure Principal
  web : Option (Request → Except Failure Principal)

def httpAuthentication (service : Option Authenticator) (methods : Methods) (request : Request) :
    Except Failure Principal :=
  let raw := parseBearer (request.header "Authorization")
  if request.signedHeadersPresent then
    if service.isNone then .error .invalidRequest else methods.signed request
  else if raw ≠ "" then do
    let principal ← methods.bearer raw
    if principal.tenantId = "" ∧ principal.userId = "" ∧
        service.any (·.requiresSignature toUpper request) then .error .missingSignature
    else .ok principal
  else match methods.web with
    | some authenticateApi => authenticateApi request
    | none => .error .unauthorized

/-- A part of a path that a part of a template stands for. -/
def PartFits (expected actual : String) : Prop :=
  actual ∉ ["", ".", ".."] ∧ (parameter expected).elim (expected = actual) (· ≠ "")

/-- A request of a route's method whose path fits the template, part by part. -/
def Request.Matches (route : Route) : Prop :=
  route.method = toUpper (trimSpace request.method) ∧ route.template ≠ "" ∧ request.path ≠ "" ∧
    ¬['/', '/'] <:+: request.path.toList ∧
    List.Forall₂ PartFits (parts route.template) (parts request.path)

theorem matchParts_isSome (template path : List String) (params : List (String × String)) :
    (matchParts params template path).isSome ↔ List.Forall₂ PartFits template path := by
  induction template generalizing path params with
  | nil => cases path <;> simp [matchParts, List.forall₂_nil_left_iff]
  | cons expected template ih =>
    cases path with
    | nil => simp [matchParts, List.forall₂_nil_right_iff]
    | cons actual path =>
      rw [matchParts, List.forall₂_cons, PartFits]
      by_cases refused : actual ∈ ["", ".", ".."]
      · simp [refused]
      · cases parameter expected with
        | none => by_cases same : expected = actual <;> simp_all
        | some name => by_cases blank : name = "" <;> simp_all

theorem matches_iff (request : Request) (route : Route) : request.Matches toUpper route ↔
    route.method = toUpper (trimSpace request.method) ∧
      (matchServiceApiRoute route.template request.path).isSome := by
  unfold Request.Matches matchServiceApiRoute
  split
  · tauto
  · rw [matchParts_isSome]
    tauto

/-- The loop succeeds with an operation when that is the only one it meets. -/
theorem resolveFrom_operation (request : Request) (found : Option ResolvedRoute)
    (routes : List Route) (operation : String) :
    (∃ resolved, resolveFrom (toUpper (trimSpace request.method)) request.path found routes =
        .ok resolved ∧ resolved.operation = operation) ↔
      (∀ route ∈ found, route.operation = operation) ∧
      (∀ route ∈ routes, request.Matches toUpper route → route.operation = operation) ∧
      (found.isSome ∨ ∃ route ∈ routes, request.Matches toUpper route) := by
  induction routes generalizing found with
  | nil => cases found <;> simp [resolveFrom]
  | cons route rest ih =>
    rw [resolveFrom]
    simp only [List.forall_mem_cons, List.exists_mem_cons_iff, matches_iff toUpper request route]
    by_cases method : route.method = toUpper (trimSpace request.method)
    · cases matchServiceApiRoute route.template request.path with
      | none => simp [method, ih]
      | some params =>
        cases found with
        | none => simp [method, ih]
        | some earlier =>
          by_cases same : earlier.operation = route.operation
          · simp [method, same, ih]
          · have apart : earlier.operation = operation → route.operation ≠ operation :=
              fun first second => same (first.trans second.symm)
            simp +contextual [method, same, apart]
    · simp [method, ih]

/-- All routes that a request matches belong to one operation. -/
def Authenticator.Unambiguous : Prop :=
  ∀ route ∈ auth.routes, ∀ other ∈ auth.routes,
    request.Matches toUpper route → request.Matches toUpper other →
      route.operation = other.operation

theorem requiresSignature_iff {auth : Authenticator} {request : Request} {route : Route}
    (listed : route ∈ auth.routes) (demanded : route.operation ∈ auth.required)
    (matched : request.Matches toUpper route) :
    auth.requiresSignature toUpper request ↔ auth.Unambiguous toUpper request := by
  have sole := resolveFrom_operation toUpper request none auth.routes
  rw [Authenticator.requiresSignature, Authenticator.resolveRoute]
  constructor
  · intro needed
    obtain ⟨resolved, found, _⟩ := ok_of_any needed
    have only := ((sole _).mp ⟨resolved, found, rfl⟩).2.1
    intro first member second member' fits fits'
    exact (only first member fits).trans (only second member' fits').symm
  · intro unambiguous
    have only := fun other member fits => unambiguous other member route listed fits matched
    obtain ⟨_, found, operation⟩ :=
      (sole _).mpr ⟨by simp, only, .inr ⟨route, listed, matched⟩⟩
    simp [found, operation, demanded, Except.toOption]

/-- A request that matches a route of a required operation needs a signature exactly when all
routes that it matches have that operation. An unsigned bearer without tenant and user is
refused then, and let through otherwise. -/
theorem signature_required_iff_unambiguous (auth : Authenticator) (methods : Methods)
    (request : Request) (principal : Principal) (unsigned : ¬request.signedHeadersPresent)
    (token : parseBearer (request.header "Authorization") ≠ "")
    (known : methods.bearer (parseBearer (request.header "Authorization")) = .ok principal)
    (tenantless : principal.tenantId = "" ∧ principal.userId = "")
    (required : ∃ route ∈ auth.routes, route.operation ∈ auth.required ∧
      request.Matches toUpper route) :
    (auth.requiresSignature toUpper request ↔ auth.Unambiguous toUpper request) ∧
    ((∀ admitted, httpAuthentication toUpper (some auth) methods request ≠ .ok admitted) ↔
      auth.Unambiguous toUpper request) := by
  obtain ⟨_, listed, demanded, matched⟩ := required
  have needed := requiresSignature_iff toUpper listed demanded matched
  rw [← needed, httpAuthentication, if_neg unsigned, if_pos token, known]
  by_cases needs : auth.requiresSignature toUpper request <;>
    simp [bind, Except.bind, tenantless, needs]

section Sample

def anyTenant : Route := ⟨"tenant.read", "GET", "/v1/tenants/\x7bid\x7d"⟩

def sampleAuthenticator (routes : List Route) : Authenticator :=
  ⟨["tenant.read", "tenant.default"], anyTenant :: routes⟩

def sampleRequest : Request :=
  ⟨"GET", "/v1/tenants/default", fun name => if name = "Authorization" then "Bearer key" else ""⟩

def sampleMethods : Methods :=
  ⟨fun _ => .error .unauthorized, fun _ => .ok ⟨"", ""⟩, none⟩

theorem sampleRequest_matches : sampleRequest.Matches id anyTenant :=
  (matches_iff id sampleRequest anyTenant).mpr (by decide +kernel)

/-- A second route of the operation, and one of another operation that does not match. -/
def sampleRoutes : List Route :=
  [⟨"tenant.read", "GET", "/v1/tenants/default"⟩, ⟨"tenant.create", "POST", "/v1/tenants"⟩]

theorem signature_required_sample :
    (sampleAuthenticator sampleRoutes).requiresSignature id sampleRequest ∧
      ∀ admitted, httpAuthentication id (some (sampleAuthenticator sampleRoutes)) sampleMethods
        sampleRequest ≠ .ok admitted := by
  have unambiguous : (sampleAuthenticator sampleRoutes).Unambiguous id sampleRequest := by
    simp only [Authenticator.Unambiguous, matches_iff]
    decide +kernel
  obtain ⟨needed, refused⟩ := signature_required_iff_unambiguous id
    (sampleAuthenticator sampleRoutes) sampleMethods sampleRequest ⟨"", ""⟩ (by decide +kernel)
    (by decide +kernel) rfl ⟨rfl, rfl⟩ ⟨anyTenant, .head _, by decide, sampleRequest_matches⟩
  exact ⟨needed.mpr unambiguous, refused.mpr unambiguous⟩

/-- With a second operation of its own for the path, the bearer passes unsigned. -/
theorem ambiguous_route_unsigned : ∃ auth request,
    (∃ route ∈ auth.routes, route.operation ∈ auth.required ∧ request.Matches id route) ∧
      auth.requiresSignature id request = false ∧
      httpAuthentication id (some auth) sampleMethods request = .ok ⟨"", ""⟩ :=
  ⟨sampleAuthenticator [⟨"tenant.default", "GET", "/v1/tenants/default"⟩], sampleRequest,
    ⟨anyTenant, .head _, by decide, sampleRequest_matches⟩, by decide +kernel, rfl⟩

end Sample

end Biz.ServiceApi
