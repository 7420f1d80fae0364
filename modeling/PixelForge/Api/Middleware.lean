import Mathlib.Data.Finite.Prod
import Mathlib.Data.Set.Finite.List
import PixelForge.Api.Application
import PixelForge.Formats.Counts

/-! # The request metrics (`api/middleware.py`, `shared/metrics.py`)

`dispatch` is a program over the three things the middleware does: it hands the request on, observes
the duration and increments the counter. `Framework` is what is behind `call_next`: FastAPI's routing
of a request to the endpoints of the application. What it answers with may depend on anything.

The `finally` block does not await, so the blocks of concurrent requests come one after another, and
a history is the list of the requests in the order of these blocks. The log lines and the duration
itself are left out.
-/
set_option autoImplicit false

namespace PixelForge
open Effects

/-! ## Requests -/

/-- A `tchar` of an HTTP token. -/
def isTokenChar (c : Char) : Bool :=
  c.isAlphanum || "!#$%&'*+-.^_`|~".toList.contains c

def isToken (text : String) : Bool := text ≠ "" && text.toList.all isTokenChar

/-- A method as the server passes it on: any token. -/
@[ext] structure Method where
  text : String
  token : isToken text = true

structure HttpRequest where
  method : Method
  path : String

/-- The object that routing leaves on the scope, as far as `resolve_endpoint` looks at it: its
`path`, where that is a string. -/
structure MatchedRoute where
  path : Option String

/-- What `call_next` comes to: the route on the scope, and the status code or the exception. -/
structure Dispatched where
  route : Option MatchedRoute
  outcome : Except Exc Nat

/-! ## The metrics -/

/-- The labels of `HTTP_REQUESTS_TOTAL`. -/
structure Labels where
  method : String
  endpoint : String
  status : String
deriving DecidableEq, Repr

/-- The children of `HTTP_REQUESTS_TOTAL` and of `HTTP_REQUEST_DURATION`, with their counts. -/
structure Registry where
  requests : List (Labels × Nat)
  durations : List (String × Nat)

namespace Registry

def observe (endpoint : String) (r : Registry) : Registry :=
  { r with durations := bump endpoint r.durations }

def inc (labels : Labels) (r : Registry) : Registry :=
  { r with requests := bump labels r.requests }

/-- The label tuples created so far. -/
def series (r : Registry) : List Labels := r.requests.map Prod.fst

/-- The endpoints created so far in the histogram. -/
def timed (r : Registry) : List String := r.durations.map Prod.fst

end Registry

@[simp] theorem mem_series_inc {l labels : Labels} {r : Registry} :
    l ∈ (r.inc labels).series ↔ l = labels ∨ l ∈ r.series := mem_bump

@[simp] theorem series_observe (endpoint : String) (r : Registry) :
    (r.observe endpoint).series = r.series := rfl

@[simp] theorem mem_timed_observe {e endpoint : String} {r : Registry} :
    e ∈ (r.observe endpoint).timed ↔ e = endpoint ∨ e ∈ r.timed := mem_bump

@[simp] theorem timed_inc (labels : Labels) (r : Registry) : (r.inc labels).timed = r.timed := rfl

/-! ## The middleware -/

/-- What `dispatch` does to its surroundings. -/
inductive Hook
  | callNext (request : HttpRequest)
  | observe (endpoint : String)
  | inc (labels : Labels)

abbrev Hook.Resp : Hook → Type
  | .callNext _ => Dispatched
  | .observe _ => Unit
  | .inc _ => Unit

def resolveEndpoint (route : Option MatchedRoute) : String :=
  match route.bind (·.path) with
  | some path => path
  | none => "unmatched"

/-- `status_code` at the `finally` block. -/
def statusCode : Except Exc Nat → Nat
  | .ok status => status
  | .error _ => 500

/-- The labels a request is counted under. -/
def labelsOf (request : HttpRequest) (d : Dispatched) : Labels where
  method := request.method.text
  endpoint := resolveEndpoint d.route
  status := toString (statusCode d.outcome)

/-- The `finally` block. -/
def recordMetrics (request : HttpRequest) (d : Dispatched) : Fallible Hook Hook.Resp Exc Unit :=
  .call (.observe (resolveEndpoint d.route)) fun _ =>
    .call (.inc (labelsOf request d)) fun _ => .ret (.ok ())

/-- `ObservabilityMiddleware.dispatch`. The `except` clause only logs. -/
def dispatch (request : HttpRequest) : Fallible Hook Hook.Resp Exc Nat :=
  .call (.callNext request) fun d =>
    Fallible.tryFinally (.ret d.outcome) (recordMetrics request d)

/-! ## The framework -/

/-- FastAPI with the application in it. Where it puts a route on the scope, the path of the route is
that of an endpoint or of a page of its own; where it responds, an endpoint or it itself does. -/
structure Framework (ext : Externals) (config : Config) where
  ownPaths : List String
  ownStatuses : List Nat
  Dispatches : HttpRequest → Dispatched → Prop
  responsive : ∀ request, ∃ d, Dispatches request d
  path_known : ∀ {request d route path}, Dispatches request d → d.route = some route →
    route.path = some path → path ∈ ownPaths ∨ ∃ e ∈ Endpoint.included config, path = e.path
  status_known : ∀ {request d status}, Dispatches request d → d.outcome = .ok status →
    status ∈ ownStatuses ∨ ∃ e ∈ Endpoint.included config, e.Responds ext config status

namespace Framework

variable {ext : Externals} {config : Config} (fw : Framework ext config)

def interface : Interface Hook Hook.Resp Registry where
  may := fun _ _ => True
  exec := fun r q =>
    match q with
    | .callNext request => fun d r' => fw.Dispatches request d ∧ r' = r
    | .observe endpoint => fun _ r' => r' = r.observe endpoint
    | .inc labels => fun _ r' => r' = r.inc labels

/-- The requests that were served, latest first, and the metrics after them. -/
inductive Served : List HttpRequest → Registry → Prop
  | start : Served [] ⟨[], []⟩
  | next {requests : List HttpRequest} {r r' : Registry} {request : HttpRequest}
      {outcome : Except Exc Nat} (h : Served requests r)
      (hrun : Steps fw.interface (dispatch request) r (.ret outcome) r') :
      Served (request :: requests) r'

/-- Requests with these methods create label tuples of one finite set only. -/
def Bounded (methods : Set Method) : Prop :=
  ∃ F : Set Labels, F.Finite ∧ ∀ requests r, (∀ request ∈ requests, request.method ∈ methods) →
    fw.Served requests r → ∀ labels ∈ r.series, labels ∈ F

/-- The endpoints that may be a label. -/
def endpoints : List String :=
  "unmatched" :: fw.ownPaths ++ (Endpoint.included config).map Endpoint.path

/-- The status codes that may be a label. -/
def statuses : List Nat := 500 :: fw.ownStatuses ++ Endpoint.statuses

variable {fw}

/-! ## One request -/

theorem endpoint_mem {request : HttpRequest} {d : Dispatched} (h : fw.Dispatches request d) :
    resolveEndpoint d.route ∈ fw.endpoints := by
  unfold resolveEndpoint endpoints
  split
  · rename_i path hpath
    obtain ⟨route, hroute, hpath⟩ := Option.bind_eq_some_iff.mp hpath
    refine List.mem_append.mpr ?_
    rcases fw.path_known h hroute hpath with hown | ⟨e, he, rfl⟩
    · exact .inl (List.mem_cons_of_mem _ hown)
    · exact .inr (List.mem_map_of_mem he)
  · simp

theorem status_mem (hpillow : ext.VerifyForeign) {request : HttpRequest} {d : Dispatched}
    (h : fw.Dispatches request d) : statusCode d.outcome ∈ fw.statuses := by
  unfold statuses
  cases houtcome : d.outcome with
  | error e => simp [statusCode]
  | ok status =>
    refine List.mem_append.mpr ?_
    rcases fw.status_known h houtcome with hown | ⟨e, _, hresponds⟩
    · exact .inl (List.mem_cons_of_mem _ hown)
    · exact .inr (hresponds.listed hpillow)

theorem wp_dispatch (request : HttpRequest) (r : Registry) :
    Prog.wp fw.interface (dispatch request) (fun _ r' => ∃ d, fw.Dispatches request d ∧
      r' = (r.observe (resolveEndpoint d.route)).inc (labelsOf request d)) r := by
  refine ⟨trivial, ?_⟩
  rintro d r₁ ⟨hd, rfl⟩
  have hrecord : ∀ outcome : Except Exc Nat, Prog.wp fw.interface
      (Fallible.tryFinally (.ret outcome) (recordMetrics request d))
      (fun _ r' => ∃ d, fw.Dispatches request d ∧
        r' = (r₁.observe (resolveEndpoint d.route)).inc (labelsOf request d)) r₁ := by
    intro outcome
    cases outcome with
    | ok status =>
      refine ⟨trivial, ?_⟩
      rintro _ _ rfl
      refine ⟨trivial, ?_⟩
      rintro _ _ rfl
      exact ⟨d, hd, rfl⟩
    | error e =>
      refine ⟨trivial, ?_⟩
      rintro _ _ rfl
      refine ⟨trivial, ?_⟩
      rintro _ _ rfl
      exact ⟨d, hd, rfl⟩
  exact hrecord d.outcome

theorem exists_dispatched (request : HttpRequest) (r : Registry) :
    ∃ outcome r', Steps fw.interface (dispatch request) r (.ret outcome) r' := by
  refine Steps.exists_returned (fun r q => ?_) (dispatch request) r
  cases q with
  | callNext request =>
    obtain ⟨d, hd⟩ := fw.responsive request
    exact ⟨d, r, hd, rfl⟩
  | observe endpoint => exact ⟨(), _, rfl⟩
  | inc labels => exact ⟨(), _, rfl⟩

/-! ## All requests -/

theorem Served.series {requests : List HttpRequest} {r : Registry} (h : fw.Served requests r)
    {labels : Labels} (hmem : labels ∈ r.series) :
    ∃ request ∈ requests, ∃ d, fw.Dispatches request d ∧ labels = labelsOf request d := by
  induction h with
  | start => simp [Registry.series] at hmem
  | next _ hrun ih =>
    obtain ⟨d, hd, rfl⟩ := hrun.returned (wp_dispatch _ _)
    rw [mem_series_inc, series_observe] at hmem
    rcases hmem with rfl | hmem
    · exact ⟨_, List.mem_cons_self, d, hd, rfl⟩
    · obtain ⟨request, hrequest, hlabels⟩ := ih hmem
      exact ⟨request, List.mem_cons_of_mem _ hrequest, hlabels⟩

/-- The histogram has one child for each route, whatever is requested. -/
theorem Served.timed {requests : List HttpRequest} {r : Registry} (h : fw.Served requests r)
    {endpoint : String} (hmem : endpoint ∈ r.timed) : endpoint ∈ fw.endpoints := by
  induction h with
  | start => simp [Registry.timed] at hmem
  | next _ hrun ih =>
    obtain ⟨d, hd, rfl⟩ := hrun.returned (wp_dispatch _ _)
    rw [timed_inc, mem_timed_observe] at hmem
    rcases hmem with rfl | hmem
    · exact endpoint_mem hd
    · exact ih hmem

theorem bounded_of_finite (hpillow : ext.VerifyForeign) {methods : Set Method}
    (hfinite : methods.Finite) : fw.Bounded methods := by
  have hlabels := (hfinite.prod (fw.endpoints.finite_toSet.prod fw.statuses.finite_toSet)).image
    fun x => Labels.mk x.1.text x.2.1 (toString x.2.2)
  refine ⟨_, hlabels, fun requests r hmethods hserved labels hmem => ?_⟩
  obtain ⟨request, hrequest, d, hd, rfl⟩ := hserved.series hmem
  exact ⟨(request.method, resolveEndpoint d.route, statusCode d.outcome),
    ⟨hmethods request hrequest, endpoint_mem hd, status_mem hpillow hd⟩, rfl⟩

/-- Each method creates a series of its own, by one request to any path. -/
theorem finite_of_bounded {methods : Set Method} (h : fw.Bounded methods) : methods.Finite := by
  obtain ⟨F, hfinite, hF⟩ := h
  refine Set.Finite.of_finite_image (f := Method.text) ((hfinite.image Labels.method).subset ?_)
    fun m _ m' _ htext => Method.ext htext
  rintro _ ⟨m, hm, rfl⟩
  obtain ⟨outcome, r, hrun⟩ : ∃ outcome r,
      Steps fw.interface (dispatch ⟨m, "/"⟩) ⟨[], []⟩ (.ret outcome) r := exists_dispatched _ _
  obtain ⟨d, hd, rfl⟩ := hrun.returned (wp_dispatch _ _)
  have hserved : fw.Served [⟨m, "/"⟩] _ := .next .start hrun
  refine ⟨labelsOf ⟨m, "/"⟩ d, hF _ _ ?_ hserved _ ?_, rfl⟩
  · simpa using hm
  · simp

/-- **The cardinality is bounded by the routes** exactly for requests whose methods are of a finite
set. -/
theorem bounded_iff (fw : Framework ext config) (hpillow : ext.VerifyForeign)
    (methods : Set Method) : fw.Bounded methods ↔ methods.Finite :=
  ⟨finite_of_bounded, bounded_of_finite hpillow⟩

end Framework

namespace Surroundings

/-- The liveness probe, and 404 for what matches no route. -/
def routed (request : HttpRequest) : Dispatched :=
  if request.path = "/healthz" then
    ⟨some ⟨some "/healthz"⟩, .ok (if request.method.text = "GET" then 200 else 405)⟩
  else ⟨none, .ok 404⟩

def framework : Framework small config where
  ownPaths := []
  ownStatuses := [404, 405]
  Dispatches := fun request d => d = routed request
  responsive := fun request => ⟨routed request, rfl⟩
  path_known := by
    rintro request _ route path rfl hroute hpath
    unfold routed at hroute
    split at hroute
    · cases hroute
      cases hpath
      exact .inr ⟨.healthz, by decide, rfl⟩
    · cases hroute
  status_known := by
    rintro request _ status rfl houtcome
    unfold routed at houtcome
    split at houtcome
    · obtain rfl := Except.ok.inj houtcome
      split
      · exact .inr ⟨.healthz, by decide, .healthz⟩
      · exact .inl (by decide)
    · obtain rfl := Except.ok.inj houtcome
      exact .inl (by decide)

theorem bounded_iff_get : framework.Bounded {⟨"GET", by decide⟩} ↔
    ({⟨"GET", by decide⟩} : Set Method).Finite :=
  framework.bounded_iff small_verifyForeign _

/-- `A`, `AA`, `AAA` and so on. -/
def scanned (n : Nat) : Method where
  text := String.ofList (List.replicate (n + 1) 'A')
  token := by
    rw [isToken, String.toList_ofList, Bool.and_eq_true]
    refine ⟨by simp, List.all_eq_true.mpr fun c hc => ?_⟩
    obtain rfl := List.eq_of_mem_replicate hc
    decide

theorem scanned_injective : Function.Injective scanned := by
  intro n m h
  have htext := congrArg (fun method => method.text.toList.length) h
  simpa [scanned] using htext

/-- A client that makes up methods creates ever more series. -/
theorem arbitrary_methods_unbounded : ¬ framework.Bounded Set.univ := by
  intro h
  have hinfinite : Infinite Method := Infinite.of_injective scanned scanned_injective
  exact Set.infinite_univ (Framework.finite_of_bounded h)

end Surroundings

end PixelForge
