import Rollout.Proofs.Control.History
import Rollout.Proofs.Control.Transparent

/-!
# Requests to the control plane are atomic

A request over HTTP is carried out as one call of the table, or it is refused and the table stays as
it was.

* **What a request posts** (`Posts.unique`, `accept_cases`): a request posts one call at most, and
  the router takes it for this call or refuses it by a status of its own.
* **Outcomes** (`outcome_of_posts`, `serve_outcome`): a call that is posted comes out as the table
  answers it, and what posts none is refused.
* **Sequences** (`serveAll_changes`): a request that is not answered with 201 or 204 can be left out
  of a sequence, by induction over the requests.
-/

namespace Rollout.Control

open Document Http

/-! ## What a request posts -/

/-- A request posts a call: it goes to the place of the call, says that its body is JSON, and the
call is read from the body. -/
structure Posts (r : Http.Request) (call : Request) : Prop where
  path : r.path = call.endpoint.path
  method : r.method = "POST"
  json : claimsJson r = true
  body : Json.decodeBytes (Request.decode call.endpoint) r.body = .ok call

theorem Endpoint.ofPath?_eq_some {p : String} {endpoint : Endpoint} :
    Endpoint.ofPath? p = some endpoint ↔ p = endpoint.path := by
  constructor
  · intro h
    have hpath := List.find?_some h
    simpa using (beq_iff_eq.mp hpath).symm
  · rintro rfl
    cases endpoint <;> decide +kernel

namespace Request

variable {endpoint : Endpoint} {call : Request}

/-- What is read at a place is a call that goes there. -/
theorem endpoint_of_decode {manner : Manner} {node : Node}
    (h : decode endpoint manner node = .ok call) : call.endpoint = endpoint := by
  have hbackend : ∀ {make : String → Backend → Request},
      (backendRecord make).decode manner node = .ok call → ∃ pattern b, call = make pattern b := by
    intro make h
    obtain ⟨d, h⟩ := Record.exists_of_decode h
    obtain ⟨pattern, -, h⟩ := exists_of_bind h
    obtain ⟨b, -, h⟩ := exists_of_bind h
    cases h
    exact ⟨pattern, b, rfl⟩
  cases endpoint with
  | poolHealth =>
    obtain ⟨d, h⟩ := Record.exists_of_decode h
    obtain ⟨pattern, -, h⟩ := exists_of_bind h
    cases h
    rfl
  | addPool =>
    obtain ⟨d, h⟩ := Record.exists_of_decode h
    obtain ⟨pattern, -, h⟩ := exists_of_bind h
    obtain ⟨type, -, h⟩ := exists_of_bind h
    obtain ⟨checks, -, h⟩ := exists_of_bind h
    cases h
    rfl
  | addBackend | removeBackend =>
    obtain ⟨pattern, b, rfl⟩ := hbackend h
    rfl

theorem endpoint_of_decodeBytes {bytes : Bytes}
    (h : Json.decodeBytes (decode endpoint) bytes = .ok call) : call.endpoint = endpoint := by
  obtain ⟨call', hcall, h⟩ := exists_of_bind h
  split at h
  · cases h
  · cases h
    exact endpoint_of_decode hcall

end Request

variable {t : Table} {r : Http.Request} {call : Request}

/-- A request posts one call only. -/
theorem Posts.unique {call' : Request} (h : Posts r call) (h' : Posts r call') : call = call' := by
  have hendpoint : call.endpoint = call'.endpoint := by
    have hsame := Endpoint.ofPath?_eq_some.mpr h.path
    rw [Endpoint.ofPath?_eq_some.mpr h'.path] at hsame
    exact (Option.some.inj hsame).symm
  have hbody := h.body
  rw [hendpoint, h'.body] at hbody
  exact (Except.ok.inj hbody).symm

/-- The statuses of the requests that are refused. -/
def refusals : List Nat := [400, 404, 405, 409, 415, 422]

/-- The router takes a request for the call that it posts, or refuses it: for its size, or because
it posts no call. -/
theorem accept_cases (r : Http.Request) :
    (∃ call, Posts r call ∧ accept r = .ok (call.endpoint, call)) ∨
      ∃ response, accept r = .error response ∧ (response.status = 413 ∧ maxBody < r.body.length ∨
        response.status ∈ refusals ∧ ∀ call, ¬ Posts r call) := by
  unfold accept
  split
  · rename_i hpath
    refine .inr ⟨_, rfl, .inr ⟨by simp [bare, refusals], fun call h => ?_⟩⟩
    simp [Endpoint.ofPath?_eq_some.mpr h.path] at hpath
  rename_i endpoint hpath
  split
  · rename_i hmethod
    exact .inr ⟨_, rfl, .inr ⟨by simp [refusals], fun call h => hmethod h.method⟩⟩
  split
  · rename_i hjson
    refine .inr ⟨_, rfl, .inr ⟨by simp [plain, refusals], fun call h => ?_⟩⟩
    simp [h.json] at hjson
  split
  · rename_i hsize
    exact .inr ⟨_, rfl, .inl ⟨rfl, hsize⟩⟩
  rename_i hmethod hjson hsize
  split
  · rename_i e hbody
    have hstatus : (refuse e).status ∈ refusals := by
      unfold refuse
      split <;> simp [plain, refusals]
    refine .inr ⟨_, rfl, .inr ⟨hstatus, fun call h => ?_⟩⟩
    rw [Endpoint.ofPath?_eq_some.mpr h.path] at hpath
    obtain rfl := Option.some.inj hpath
    rw [h.body] at hbody
    cases hbody
  · rename_i call hbody
    obtain rfl := Request.endpoint_of_decodeBytes hbody
    refine .inl ⟨call, ⟨Endpoint.ofPath?_eq_some.mp hpath, by simpa using hmethod,
      by simpa using hjson, hbody⟩, rfl⟩

/-! ## Outcomes -/

/-- How a request to a table comes out: the answer to it and the table afterwards. -/
inductive Outcome (t : Table) (r : Http.Request) : Http.Response → Table → Prop
  /-- The health of a pool is reported, and the table stays as it was. -/
  | reported {pattern : String} {health : PoolHealth} (posts : Posts r (.poolHealth pattern))
    (call : t.health pattern = .ok health) :
    Outcome t r ⟨200, [(contentType, jsonType)], Text.Utf8.bytes (Json.compact health.value)⟩ t
  /-- A pool is created. -/
  | created {pattern : String} {type : PoolType} {checks : HealthChecks} {after : Table}
    (posts : Posts r (.addPool pattern type checks))
    (call : t.addPool pattern type checks = .ok after) : Outcome t r (bare 201) after
  /-- A backend is added. -/
  | added {pattern : String} {b : Backend} {after : Table}
    (posts : Posts r (.addBackend pattern b))
    (call : t.addBackend pattern b = .ok after) : Outcome t r (bare 204) after
  /-- A backend is removed. -/
  | removed {pattern : String} {b : Backend} {after : Table}
    (posts : Posts r (.removeBackend pattern b))
    (call : t.removeBackend pattern b = .ok after) : Outcome t r (bare 204) after
  /-- The request is refused, and the table stays as it was. Where the request posts a call, the
  table refuses this call. -/
  | refused {response : Http.Response} (status : response.status ∈ refusals)
    (call : ∀ call, Posts r call → ∃ e, (call.perform t).1 = .error e ∧
      response = plain (statusOf e) e.message) : Outcome t r response t

theorem status_of_isRefusal {e : PoolError} (h : e.IsRefusal) : statusOf e ∈ refusals := by
  cases e with
  | poolNotFound | poolExists | backendExists | backendNotFound => simp [statusOf, refusals]
  | _ => exact h.elim

/-- A call that is posted has the outcome that the table gives it. -/
theorem outcome_of_posts (h : Posts r call) :
    Outcome t r (respond call.endpoint (call.perform t).1) (call.perform t).2 := by
  cases hanswer : (call.perform t).1 with
  | error e =>
    have hsame : (call.perform t).2 = t := Operation.perform_of_error (o := .request call) hanswer
    rw [hsame]
    refine .refused (status_of_isRefusal (Request.isRefusal_of_perform hanswer)) ?_
    intro call' h'
    obtain rfl := h.unique h'
    exact ⟨e, hanswer, rfl⟩
  | ok a =>
    rcases Request.answer_of_perform hanswer with ⟨pattern, health, rfl, rfl⟩ | ⟨hchange, rfl⟩
    · have hsame : ((Request.poolHealth pattern).perform t).2 = t :=
        Operation.perform_health pattern
      rw [hsame]
      cases hhealth : t.health pattern with
      | error e => simp [Request.perform, hhealth] at hanswer
      | ok health' =>
        simp only [Request.perform, hhealth, Except.ok.injEq, Answer.health.injEq] at hanswer
        rw [hanswer] at hhealth
        exact .reported h hhealth
    cases call with
    | poolHealth pattern => exact absurd rfl (hchange pattern)
    | addPool pattern type checks =>
      obtain ⟨after, hcall, rfl⟩ := Request.exists_of_settle hanswer
      exact .created h hcall
    | addBackend pattern b =>
      obtain ⟨after, hcall, rfl⟩ := Request.exists_of_settle hanswer
      exact .added h hcall
    | removeBackend pattern b =>
      obtain ⟨after, hcall, rfl⟩ := Request.exists_of_settle hanswer
      exact .removed h hcall

/-- Every request within the limit has one of the outcomes. -/
theorem serve_outcome (t : Table) (h : r.body.length ≤ maxBody) :
    Outcome t r (serve t r).1 (serve t r).2 := by
  rcases accept_cases r with ⟨call, hposts, haccept⟩ | ⟨response, haccept, hrefused⟩
  · rw [serve, haccept]
    exact outcome_of_posts hposts
  · rw [serve, haccept]
    rcases hrefused with ⟨-, hsize⟩ | ⟨hstatus, hposts⟩
    · omega
    · exact .refused hstatus fun call hcall => absurd hcall (hposts call)

/-- The status of an outcome, and what it says of the table. -/
theorem Outcome.status_cases {response : Http.Response} {after : Table}
    (h : Outcome t r response after) :
    (response.status = 200 ∧ after = t) ∨ (response.status = 201 ∨ response.status = 204) ∨
      (response.status ∈ refusals ∧ after = t) := by
  cases h with
  | reported => exact .inl ⟨rfl, rfl⟩
  | created => exact .inr (.inl (.inl rfl))
  | added | removed => exact .inr (.inl (.inr rfl))
  | refused status => exact .inr (.inr ⟨status, rfl⟩)

/-- What the status of an answer says, whatever the size of the body. -/
theorem serve_status (t : Table) (r : Http.Request) :
    (serve t r).1.status < 500 ∧
      ((serve t r).1.status ≠ 201 → (serve t r).1.status ≠ 204 → (serve t r).2 = t) := by
  rcases accept_cases r with ⟨call, hposts, haccept⟩ | ⟨response, haccept, hrefused⟩
  · have houtcome : Outcome t r (serve t r).1 (serve t r).2 := by
      rw [serve, haccept]
      exact outcome_of_posts hposts
    have hrefusal : ∀ status ∈ refusals, status < 500 := by decide
    rcases houtcome.status_cases with ⟨hstatus, hafter⟩ | hstatus | ⟨hstatus, hafter⟩
    · exact ⟨by omega, fun _ _ => hafter⟩
    · exact ⟨by omega, fun _ _ => by omega⟩
    · exact ⟨hrefusal _ hstatus, fun _ _ => hafter⟩
  · rw [serve, haccept]
    have hrefusal : ∀ status ∈ refusals, status < 500 := by decide
    rcases hrefused with ⟨hstatus, -⟩ | ⟨hstatus, -⟩
    · exact ⟨by simp [hstatus], fun _ _ => rfl⟩
    · exact ⟨hrefusal _ hstatus, fun _ _ => rfl⟩

/-! ## Sequences -/

/-- Answers requests one after the other: each request with its answer, and the table behind the
last. -/
def serveAll (t : Table) : List Http.Request → List (Http.Request × Http.Response) × Table
  | [] => ([], t)
  | r :: rest =>
    let (response, after) := serve t r
    let (answered, last) := serveAll after rest
    ((r, response) :: answered, last)

/-- Whether an answer says that the table was changed. -/
def changes (response : Http.Response) : Bool := response.status == 201 || response.status == 204

/-- Requests that change nothing can be left out: those that remain get the answers that they had,
and the table ends as it did. -/
theorem serveAll_changes (t : Table) (requests : List Http.Request) :
    serveAll t (((serveAll t requests).1.filter (changes ·.2)).map Prod.fst) =
      ((serveAll t requests).1.filter (changes ·.2), (serveAll t requests).2) := by
  induction requests generalizing t with
  | nil => rfl
  | cons r rest ih =>
    have hrest := ih (serve t r).2
    by_cases hchanges : changes (serve t r).1 = true
    · simp [serveAll, hchanges, hrest]
    · have hsame : (serve t r).2 = t := by
        simp only [changes, Bool.or_eq_true, beq_iff_eq, not_or] at hchanges
        exact (serve_status t r).2 hchanges.1 hchanges.2
      rw [hsame] at hrest
      simp [serveAll, hchanges, hsame, hrest]

/-- **Requests are atomic.** A request within the limit comes out in one of these ways: a pool that
is there is reported, and the table stays; the one change that is posted is made, and answered with
201 or 204; or the request is refused by its status, and the table stays. No request at all has the
status of a failure of the server, and after any requests the table is what those that were answered
with 201 or 204 make of it, which get the same answers. -/
theorem requests_atomic :
    (∀ (t : Table) (r : Http.Request), r.body.length ≤ maxBody →
      Outcome t r (serve t r).1 (serve t r).2) ∧
    (∀ (t : Table) (r : Http.Request), (serve t r).1.status < 500) ∧
    ∀ (t : Table) (requests : List Http.Request),
      serveAll t (((serveAll t requests).1.filter (changes ·.2)).map Prod.fst) =
        ((serveAll t requests).1.filter (changes ·.2), (serveAll t requests).2) :=
  ⟨fun t _ h => serve_outcome t h, fun t r => (serve_status t r).1, serveAll_changes⟩

/-- The call for a new pool. -/
def newPool : Request := .addPool "/" .roundRobin (.standard "/healthz")

theorem requests_atomic_newPool :
    newPool.http.body.length ≤ maxBody ∧
      Outcome .empty newPool.http (bare 201)
        (Table.empty.put "/" ⟨.roundRobin, .standard "/healthz", []⟩) := by
  have hsize : newPool.http.body.length ≤ maxBody := by
    have hbody : newPool.http.body =
        (Json.compactChars newPool.value).flatMap String.utf8EncodeChar := Text.Utf8.bytes_ofList _
    rw [hbody]
    decide +kernel
  have houtcome := requests_atomic.1 .empty newPool.http hsize
  rw [serve_http _ _ hsize] at houtcome
  exact ⟨hsize, houtcome⟩

end Rollout.Control
